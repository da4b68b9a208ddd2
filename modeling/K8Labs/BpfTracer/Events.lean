import K8Labs.BpfTracer.Registry
import K8Labs.Python.Str

/-!
# The lines of the BPF script

The script of `bpf.rs` prints an event without quotes (`eventLine`), and `parse_throttle_event`
splits the line at its commas.  An
event is read back from its line exactly when the name of its command has no comma
(`parseThrottleEvent_eventLine_iff`).
-/

namespace BpfTracer

/-! ### Numbers -/

/-- `parse` for an unsigned type: a plus sign may stand before the digits. -/
def parseUnsigned (bound : ℕ) (text : Text) : Option ℕ :=
  let digits := if text.head? = some '+' then text.tail else text
  if digits ≠ [] ∧ digits.all Char.isDigit = true ∧ Py.digitsValue digits < bound then
    some (Py.digitsValue digits)
  else none

def parseU32 (text : Text) : Option ℕ := parseUnsigned (2 ^ 32) text

def parseU64 (text : Text) : Option ℕ := parseUnsigned (2 ^ 64) text

theorem parseUnsigned_natDigits {bound n : ℕ} (hn : n < bound) :
    parseUnsigned bound (Py.natDigits n) = some n := by
  have hdigits : ∀ c ∈ Py.natDigits n, c.isDigit = true := fun _ => Py.isDigit_of_mem_natDigits
  have hhead : ¬ (Py.natDigits n).head? = some '+' := by
    intro hplus
    exact absurd (hdigits '+' (List.mem_of_mem_head? (Option.mem_def.2 hplus))) (by decide)
  unfold parseUnsigned
  rw [if_neg hhead]
  dsimp only
  rw [Py.digitsValue_natDigits]
  exact if_pos ⟨Py.natDigits_ne_nil n, List.all_eq_true.2 hdigits, hn⟩

/-! ### Lines -/

/-- `char::is_whitespace`. -/
def isWhitespace (c : Char) : Bool :=
  [0x9, 0xa, 0xb, 0xc, 0xd, 0x20, 0x85, 0xa0, 0x1680, 0x2000, 0x2001, 0x2002, 0x2003, 0x2004, 0x2005,
    0x2006, 0x2007, 0x2008, 0x2009, 0x200a, 0x2028, 0x2029, 0x202f, 0x205f, 0x3000].contains c.toNat

def trim (text : Text) : Text :=
  ((text.dropWhile isWhitespace).reverse.dropWhile isWhitespace).reverse

/-- `read_procs`, of the content of the file; a line that is no number is left out. -/
def readProcs (content : Text) : List ℕ :=
  (content.splitOn '\n').filterMap fun line => parseU32 (trim line)

/-- `parse_throttle_event`. -/
def parseThrottleEvent (line : Text) : Option ThrottleEvent :=
  match line.splitOn ',' with
  | [timestamp, comm, pid, throttled] =>
    (parseU64 timestamp).bind fun timestampMs =>
    (parseU32 pid).bind fun pid =>
    (parseU64 throttled).map fun throttledUsec => ⟨timestampMs, comm, pid, throttledUsec⟩
  | _ => none

/-- What the script prints for an event. -/
def eventLine (event : ThrottleEvent) : Text :=
  Py.natDigits event.timestampMs ++ ',' :: (event.comm ++ ',' :: (Py.natDigits event.pid ++
    ',' :: Py.natDigits event.throttledUsec))

/-- The numbers of an event have the widths of their types. -/
structure ThrottleEvent.InRange (event : ThrottleEvent) : Prop where
  timestampMs : event.timestampMs < 2 ^ 64
  pid : event.pid < 2 ^ 32
  throttledUsec : event.throttledUsec < 2 ^ 64

section Lines

variable {event : ThrottleEvent}

theorem comma_notMem_natDigits (n : ℕ) : ',' ∉ Py.natDigits n := fun h =>
  absurd (Py.isDigit_of_mem_natDigits h) (by decide)

theorem splitOn_eventLine : (eventLine event).splitOn ',' =
    Py.natDigits event.timestampMs :: (event.comm.splitOn ',' ++
      [Py.natDigits event.pid, Py.natDigits event.throttledUsec]) := by
  rw [eventLine, List.splitOn_append_cons_self_of_not_mem (comma_notMem_natDigits _),
    List.splitOn_append_cons_self, List.splitOn_append_cons_self_of_not_mem
      (comma_notMem_natDigits _), List.splitOn_eq_singleton (comma_notMem_natDigits _)]

theorem one_lt_length_splitOn {text : Text} (h : ',' ∈ text) : 1 < (text.splitOn ',').length := by
  obtain ⟨before, after, rfl⟩ := List.append_of_mem h
  rw [List.splitOn_append_cons_self, List.length_append]
  have hbefore := List.length_pos_of_ne_nil (List.splitOn_ne_nil ',' before)
  have hafter := List.length_pos_of_ne_nil (List.splitOn_ne_nil ',' after)
  omega

theorem length_of_parseThrottleEvent {line : Text} (h : parseThrottleEvent line = some event) :
    (line.splitOn ',').length = 4 := by
  unfold parseThrottleEvent at h
  split at h
  · next hsplit =>
    rw [hsplit]
    rfl
  · cases h

/-- **An event is read back** from its line exactly when the name of its command has no comma. -/
theorem parseThrottleEvent_eventLine_iff (h : event.InRange) :
    parseThrottleEvent (eventLine event) = some event ↔ ',' ∉ event.comm := by
  constructor
  · intro hparse hcomma
    -- the name is more than one field
    have hlength := length_of_parseThrottleEvent hparse
    have hname := one_lt_length_splitOn hcomma
    rw [splitOn_eventLine, List.length_cons, List.length_append] at hlength
    simp only [List.length_cons, List.length_nil] at hlength
    omega
  · intro hcomma
    unfold parseThrottleEvent
    rw [splitOn_eventLine, List.splitOn_eq_singleton hcomma]
    show ((parseUnsigned _ _).bind fun _ => _) = _
    rw [parseUnsigned_natDigits h.timestampMs, Option.bind_some]
    show ((parseUnsigned _ _).bind fun _ => _) = _
    rw [parseUnsigned_natDigits h.pid, Option.bind_some]
    show (parseUnsigned _ _).map _ = _
    rw [parseUnsigned_natDigits h.throttledUsec]
    rfl

end Lines

end BpfTracer
