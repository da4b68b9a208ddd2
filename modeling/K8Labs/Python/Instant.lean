import K8Labs.Python.Datetime
import K8Labs.Python.Replace
import Mathlib.Data.List.Lex
import Mathlib.Data.String.Basic

/-!
# Instants

Aware datetimes in UTC and the text that `isoformat` makes of them.  A fraction of a second is
written only if it is not zero, so the order of the texts is not the order of time:

* `utcNow_lt_iff` : texts are in the order of the seconds, and within one second the text without a
  fraction comes last.
-/

namespace Py

/-- A `datetime` in UTC. -/
structure Instant where
  year : ℕ
  month : ℕ
  day : ℕ
  hour : ℕ
  minute : ℕ
  second : ℕ
  microsecond : ℕ
  year_pos : 1 ≤ year
  year_le : year ≤ 9999
  month_pos : 1 ≤ month
  month_le : month ≤ 12
  day_pos : 1 ≤ day
  day_le : day ≤ Datetime.daysInMonth year month
  hour_lt : hour < 24
  minute_lt : minute < 60
  second_lt : second < 60
  microsecond_lt : microsecond < 10 ^ 6

/-- A decimal digit. -/
def digitChar (n : ℕ) : Char := Char.ofNat (48 + n)

/-- `'%0{width}d'` of a number with at most so many digits. -/
def padded : ℕ → ℕ → List Char
  | 0, _ => []
  | width + 1, n => padded width (n / 10) ++ [digitChar (n % 10)]

namespace Instant

/-- The text up to the seconds. -/
def wholeText (i : Instant) : List Char :=
  padded 4 i.year ++ '-' :: (padded 2 i.month ++ '-' :: (padded 2 i.day ++ 'T' ::
    (padded 2 i.hour ++ ':' :: (padded 2 i.minute ++ ':' :: padded 2 i.second))))

/-- `isoformat()`. -/
def isoformat (i : Instant) : List Char :=
  i.wholeText ++ ((if i.microsecond = 0 then [] else '.' :: padded 6 i.microsecond) ++
    "+00:00".toList)

/-- `isoformat().replace("+00:00", "Z")`. -/
def utcNow (i : Instant) : String := String.ofList (replace "+00:00".toList ['Z'] i.isoformat)

/-- The whole seconds since the beginning of the calendar. -/
def seconds (i : Instant) : ℕ :=
  ((Datetime.ordinal i.year i.month i.day * 24 + i.hour) * 60 + i.minute) * 60 + i.second

/-- The microseconds since the beginning of the calendar. -/
def time (i : Instant) : ℕ := i.seconds * 10 ^ 6 + i.microsecond

end Instant

/-! ### The order of numerals -/

theorem digitChar_lt_iff {m n : ℕ} (hm : m < 10) (hn : n < 10) :
    digitChar m < digitChar n ↔ m < n := by
  have key : ∀ m < 10, ∀ n < 10, digitChar m < digitChar n ↔ m < n := by decide
  exact key m hm n hn

theorem digitChar_inj {m n : ℕ} (hm : m < 10) (hn : n < 10) :
    digitChar m = digitChar n ↔ m = n := by
  have key : ∀ m < 10, ∀ n < 10, digitChar m = digitChar n ↔ m = n := by decide
  exact key m hm n hn

/-- Numerals of one width come first in the order of texts. -/
theorem padded_append_lt_iff {width m n : ℕ} (hm : m < 10 ^ width) (hn : n < 10 ^ width)
    (xs ys : List Char) :
    padded width m ++ xs < padded width n ++ ys ↔ m < n ∨ m = n ∧ xs < ys := by
  induction width generalizing m n xs ys with
  | zero =>
    obtain rfl : m = 0 := by omega
    obtain rfl : n = 0 := by omega
    simp [padded]
  | succ width ih =>
    rw [padded, padded, List.append_assoc, List.append_assoc,
      ih (by omega) (by omega), List.singleton_append, List.singleton_append, List.cons_lt_cons_iff,
      digitChar_lt_iff (Nat.mod_lt _ (by decide)) (Nat.mod_lt _ (by decide)),
      digitChar_inj (Nat.mod_lt _ (by decide)) (Nat.mod_lt _ (by decide))]
    by_cases hlt : xs < ys
    · simp only [hlt, and_true]
      omega
    · simp only [hlt, and_false, or_false]
      omega

theorem forall_mem_padded {P : Char → Prop} (h : ∀ n < 10, P (digitChar n)) (width n : ℕ) :
    ∀ c ∈ padded width n, P c := by
  induction width generalizing n with
  | zero => exact fun _ hc => nomatch hc
  | succ width ih =>
    intro c hc
    rcases List.mem_append.1 hc with hc | hc
    · exact ih (n / 10) c hc
    · rw [List.mem_singleton.1 hc]
      exact h _ (Nat.mod_lt _ (by decide))

/-! ### The order of days -/

namespace Datetime

theorem daysBefore_succ {y mo : ℕ} (hmo : 1 ≤ mo) :
    daysBefore y (mo + 1) = daysBefore y mo + daysInMonth y mo := by
  obtain ⟨k, rfl⟩ : ∃ k, mo = k + 1 := ⟨mo - 1, by omega⟩
  rw [daysBefore, daysBefore, Nat.add_sub_cancel, Nat.add_sub_cancel, List.range_succ,
    List.map_append, List.sum_append, List.map_singleton, List.sum_singleton]

theorem daysBefore_mono {y mo mo' : ℕ} (hmo : 1 ≤ mo) (hle : mo ≤ mo') :
    daysBefore y mo ≤ daysBefore y mo' := by
  induction mo', hle using Nat.le_induction with
  | base => exact le_rfl
  | succ k hk ih =>
    rw [daysBefore_succ (hmo.trans hk)]
    omega

/-- The days before a year. -/
def daysBeforeYear (y : ℕ) : ℕ := (y - 1) * 365 + (y - 1) / 4 - (y - 1) / 100 + (y - 1) / 400

theorem daysBeforeYear_succ {y : ℕ} (hy : 1 ≤ y) :
    daysBeforeYear (y + 1) = daysBeforeYear y + daysBefore y 13 := by
  have hdays : daysBefore y 13 = if isLeap y then 366 else 365 := by
    cases h : isLeap y <;> simp [daysBefore, daysInMonth, List.range_succ, h]
  have hleap : isLeap y = true ↔ 4 ∣ y ∧ (¬ 100 ∣ y ∨ 400 ∣ y) := by
    simp only [isLeap, Bool.and_eq_true, Bool.or_eq_true, decide_eq_true_eq, Nat.dvd_iff_mod_eq_zero,
      ne_eq]
  obtain ⟨n, rfl⟩ : ∃ n, y = n + 1 := ⟨y - 1, by omega⟩
  have hhundred : n / 100 ≤ n / 4 := Nat.div_le_div_left (by decide) (by decide)
  rw [hdays, daysBeforeYear, daysBeforeYear, Nat.add_sub_cancel, Nat.add_sub_cancel, Nat.succ_div,
    Nat.succ_div, Nat.succ_div, if_congr hleap rfl rfl]
  split_ifs <;> omega

theorem daysBeforeYear_mono {y y' : ℕ} (hy : 1 ≤ y) (hle : y ≤ y') :
    daysBeforeYear y ≤ daysBeforeYear y' := by
  induction y', hle using Nat.le_induction with
  | base => exact le_rfl
  | succ k hk ih =>
    rw [daysBeforeYear_succ (hy.trans hk)]
    omega

end Datetime

namespace Instant

variable (a b : Instant)

theorem daysBefore_add_day_le : Datetime.daysBefore a.year a.month + a.day ≤
    Datetime.daysBefore a.year (a.month + 1) := by
  rw [Datetime.daysBefore_succ a.month_pos]
  exact Nat.add_le_add_left a.day_le _

theorem ordinal_eq : Datetime.ordinal a.year a.month a.day =
    Datetime.daysBeforeYear a.year + (Datetime.daysBefore a.year a.month + a.day) := by
  rw [Datetime.ordinal, Datetime.daysBeforeYear, Nat.add_assoc]

/-- Days are in the order of year, month and day. -/
theorem ordinal_lt_of {a b : Instant} (h : a.year < b.year ∨ a.year = b.year ∧
      (a.month < b.month ∨ a.month = b.month ∧ a.day < b.day)) :
    Datetime.ordinal a.year a.month a.day < Datetime.ordinal b.year b.month b.day := by
  have ha := a.daysBefore_add_day_le
  have hb := b.day_pos
  rw [ordinal_eq, ordinal_eq]
  rcases h with hyear | ⟨hyear, hmonth | ⟨hmonth, hday⟩⟩
  · have hnext := Datetime.daysBeforeYear_mono (Nat.le_add_left 1 a.year) hyear
    have hlast : a.month + 1 ≤ 13 := Nat.succ_le_succ a.month_le
    have hmonths := Datetime.daysBefore_mono (y := a.year) (Nat.le_add_left 1 a.month) hlast
    have hyears := Datetime.daysBeforeYear_succ a.year_pos
    omega
  · have hmonths := Datetime.daysBefore_mono (y := a.year) (Nat.le_add_left 1 a.month) hmonth
    rw [← hyear]
    omega
  · rw [← hyear, ← hmonth]
    omega

theorem ordinal_lt_iff : Datetime.ordinal a.year a.month a.day < Datetime.ordinal b.year b.month b.day ↔
    a.year < b.year ∨ a.year = b.year ∧
      (a.month < b.month ∨ a.month = b.month ∧ a.day < b.day) := by
  constructor
  · intro h
    by_contra hnot
    rcases Nat.lt_trichotomy a.year b.year with hyear | hyear | hyear
    · exact hnot (.inl hyear)
    · rcases Nat.lt_trichotomy a.month b.month with hmonth | hmonth | hmonth
      · exact hnot (.inr ⟨hyear, .inl hmonth⟩)
      · rcases Nat.lt_trichotomy a.day b.day with hday | hday | hday
        · exact hnot (.inr ⟨hyear, .inr ⟨hmonth, hday⟩⟩)
        · rw [hyear, hmonth, hday] at h
          exact lt_irrefl _ h
        · exact lt_asymm h (ordinal_lt_of (.inr ⟨hyear.symm, .inr ⟨hmonth.symm, hday⟩⟩))
      · exact lt_asymm h (ordinal_lt_of (.inr ⟨hyear.symm, .inl hmonth⟩))
    · exact lt_asymm h (ordinal_lt_of (.inl hyear))
  · exact ordinal_lt_of

/-! ### The order of texts -/

/-- The fraction of a second, if it is not zero. -/
def fraction : List Char := if a.microsecond = 0 then [] else '.' :: padded 6 a.microsecond

/-- The characters of the text before its zone. -/
theorem forall_mem_text {P : Char → Prop} (hdigit : ∀ n < 10, P (digitChar n))
    (hseparator : ∀ c ∈ ['-', 'T', ':', '.'], P c) : ∀ c ∈ a.wholeText ++ a.fraction, P c := by
  have hpadded : ∀ width n, ∀ c ∈ padded width n, P c := forall_mem_padded hdigit
  simp only [List.forall_mem_cons] at hseparator
  obtain ⟨hminus, htee, hcolon, hdot, -⟩ := hseparator
  have hfraction : ∀ c ∈ a.fraction, P c := by
    unfold fraction
    split_ifs
    · exact fun _ hc => nomatch hc
    · exact List.forall_mem_cons.2 ⟨hdot, hpadded 6 a.microsecond⟩
  simp only [wholeText, List.forall_mem_append, List.forall_mem_cons]
  exact ⟨⟨hpadded _ _, hminus, hpadded _ _, hminus, hpadded _ _, htee, hpadded _ _, hcolon,
    hpadded _ _, hcolon, hpadded _ _⟩, hfraction⟩

theorem plus_notMem : '+' ∉ a.wholeText ++ a.fraction := fun hmem =>
  a.forall_mem_text (P := fun c => '+' ≠ c) (by decide) (by simp) '+' hmem rfl

theorem toList_utcNow : a.utcNow.toList = a.wholeText ++ (a.fraction ++ ['Z']) := by
  have hsplit : a.isoformat = (a.wholeText ++ a.fraction) ++ ("+00:00".toList ++ []) := by
    rw [isoformat, fraction, List.append_nil, List.append_assoc]
  have hplus : "+00:00".toList = '+' :: "00:00".toList := by decide
  rw [utcNow, String.toList_ofList, hsplit, hplus, replace_append_of_notMem a.plus_notMem,
    replace_old_append (List.cons_ne_nil _ _), replace_nil, List.append_assoc, List.append_nil]

theorem widths : a.year < 10 ^ 4 ∧ a.month < 10 ^ 2 ∧ a.day < 10 ^ 2 ∧ a.hour < 10 ^ 2 ∧
    a.minute < 10 ^ 2 ∧ a.second < 10 ^ 2 := by
  have hyear := a.year_le
  have hmonth := a.month_le
  have hday := a.day_le.trans (Datetime.daysInMonth_le _ _)
  have hhour := a.hour_lt
  have hminute := a.minute_lt
  have hsecond := a.second_lt
  omega

theorem seconds_lt_iff : a.seconds < b.seconds ↔
    Datetime.ordinal a.year a.month a.day < Datetime.ordinal b.year b.month b.day ∨
      Datetime.ordinal a.year a.month a.day = Datetime.ordinal b.year b.month b.day ∧
        (a.hour < b.hour ∨ a.hour = b.hour ∧ (a.minute < b.minute ∨
          a.minute = b.minute ∧ a.second < b.second)) := by
  have ha := a.hour_lt
  have ha' := a.minute_lt
  have ha'' := a.second_lt
  have hb := b.hour_lt
  have hb' := b.minute_lt
  have hb'' := b.second_lt
  unfold seconds
  omega

theorem ordinal_eq_iff :
    Datetime.ordinal a.year a.month a.day = Datetime.ordinal b.year b.month b.day ↔
      a.year = b.year ∧ a.month = b.month ∧ a.day = b.day := by
  constructor
  · intro heq
    have hlt := mt (a.ordinal_lt_iff b).2 (not_lt_of_ge heq.ge)
    have hgt := mt (b.ordinal_lt_iff a).2 (not_lt_of_ge heq.le)
    omega
  · rintro ⟨hyear, hmonth, hday⟩
    rw [hyear, hmonth, hday]

theorem seconds_eq_iff : a.seconds = b.seconds ↔
    a.year = b.year ∧ a.month = b.month ∧ a.day = b.day ∧ a.hour = b.hour ∧ a.minute = b.minute ∧
      a.second = b.second := by
  have ha := a.hour_lt
  have ha' := a.minute_lt
  have ha'' := a.second_lt
  have hb := b.hour_lt
  have hb' := b.minute_lt
  have hb'' := b.second_lt
  have hordinal := a.ordinal_eq_iff b
  have hseconds : a.seconds = b.seconds ↔
      Datetime.ordinal a.year a.month a.day = Datetime.ordinal b.year b.month b.day ∧
        a.hour = b.hour ∧ a.minute = b.minute ∧ a.second = b.second := by
    unfold seconds
    omega
  rw [hseconds, hordinal, and_assoc, and_assoc]

/-- Texts of whole seconds are in the order of time. -/
theorem wholeText_append_lt_iff (xs ys : List Char) :
    a.wholeText ++ xs < b.wholeText ++ ys ↔
      a.seconds < b.seconds ∨ a.seconds = b.seconds ∧ xs < ys := by
  obtain ⟨ha₁, ha₂, ha₃, ha₄, ha₅, ha₆⟩ := a.widths
  obtain ⟨hb₁, hb₂, hb₃, hb₄, hb₅, hb₆⟩ := b.widths
  simp only [wholeText, List.append_assoc, List.cons_append]
  rw [padded_append_lt_iff ha₁ hb₁, List.cons_lt_cons_self, padded_append_lt_iff ha₂ hb₂,
    List.cons_lt_cons_self, padded_append_lt_iff ha₃ hb₃, List.cons_lt_cons_self,
    padded_append_lt_iff ha₄ hb₄, List.cons_lt_cons_self, padded_append_lt_iff ha₅ hb₅,
    List.cons_lt_cons_self, padded_append_lt_iff ha₆ hb₆, seconds_lt_iff, seconds_eq_iff,
    ordinal_lt_iff, ordinal_eq_iff]
  simp only [and_or_left, or_assoc, and_assoc]

/-- There is no white space to strip. -/
theorem strip_utcNow : strip a.utcNow = a.utcNow := by
  have hplain : ∀ c ∈ a.utcNow.toList, isSpace c = false := by
    rw [toList_utcNow, ← List.append_assoc, List.forall_mem_append]
    exact ⟨a.forall_mem_text (by decide) (by simp [isSpace]), by simp [isSpace]⟩
  have hstrip := strip_eq_self hplain
  rwa [String.ofList_toList] at hstrip

/-- What decides between two texts of one second: no fraction comes last. -/
def place : ℕ := if a.microsecond = 0 then 10 ^ 6 else a.microsecond

theorem fraction_lt_iff : a.fraction ++ ['Z'] < b.fraction ++ ['Z'] ↔ a.place < b.place := by
  have ha := a.microsecond_lt
  have hb := b.microsecond_lt
  have hbefore : ('.' : Char) < 'Z' := by decide
  unfold fraction place
  split_ifs with h₁ h₂ h₂
  · simp
  · refine iff_of_false ?_ (by omega)
    simp [List.cons_lt_cons_iff, hbefore.not_gt]
  · refine iff_of_true ?_ (by omega)
    exact List.cons_lt_cons_iff.2 (.inl hbefore)
  · rw [List.cons_append, List.cons_append, List.cons_lt_cons_self, padded_append_lt_iff ha hb]
    simp

/-- **The order of the texts.** -/
theorem utcNow_lt_iff : a.utcNow < b.utcNow ↔
    a.seconds < b.seconds ∨ a.seconds = b.seconds ∧ a.place < b.place := by
  rw [String.lt_iff_toList_lt, toList_utcNow, toList_utcNow, wholeText_append_lt_iff,
    fraction_lt_iff]

/-- **The order of time.** -/
theorem time_lt_iff : a.time < b.time ↔
    a.seconds < b.seconds ∨ a.seconds = b.seconds ∧ a.microsecond < b.microsecond := by
  have ha := a.microsecond_lt
  have hb := b.microsecond_lt
  unfold time
  omega

end Instant

end Py
