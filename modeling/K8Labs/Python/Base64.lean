import K8Labs.Python.Bytes

/-!
# Reading base64

`b64decode` is `base64.b64decode` of a text, which passes over what is not in the alphabet and stops
at the padding.  `b64decode_of_filter` : **what `b64encode` has written is read back, whatever else
stands between its characters.**
-/

namespace Py

/-- The six bits that a character of the alphabet stands for. -/
def base64Value? (c : Char) : Option ℕ :=
  if 'A' ≤ c ∧ c ≤ 'Z' then some (c.toNat - 65)
  else if 'a' ≤ c ∧ c ≤ 'z' then some (c.toNat - 71)
  else if '0' ≤ c ∧ c ≤ '9' then some (c.toNat + 4)
  else if c = '+' then some 62
  else if c = '/' then some 63
  else none

/-- A character that is not passed over. -/
def isBase64 (c : Char) : Bool := c = '=' || (base64Value? c).isSome

/-- What `binascii.a2b_base64` has read. -/
structure Quads where
  bytes : List UInt8
  /-- The characters of the current group of four. -/
  position : ℕ
  /-- The bits of the last character that are not written yet. -/
  left : ℕ
  pads : ℕ
  /-- The padding is complete, and nothing more is read. -/
  closed : Bool
  deriving DecidableEq

namespace Quads

/-- Nothing is read. -/
def start : Quads := ⟨[], 0, 0, 0, false⟩

/-- Six more bits. -/
def add (q : Quads) (v : ℕ) : Quads :=
  match q.position with
  | 0 => { q with position := 1, left := v, pads := 0 }
  | 1 => ⟨q.bytes ++ [UInt8.ofNat (q.left * 4 + v / 16)], 2, v % 16, 0, q.closed⟩
  | 2 => ⟨q.bytes ++ [UInt8.ofNat (q.left * 16 + v / 4)], 3, v % 4, 0, q.closed⟩
  | _ => ⟨q.bytes ++ [UInt8.ofNat (q.left * 64 + v)], 0, 0, 0, q.closed⟩

/-- One more character. -/
def push (q : Quads) (c : Char) : Quads :=
  if q.closed then q
  else if c = '=' then
    if q.position < 2 then q
    else { q with pads := q.pads + 1, closed := 4 ≤ q.position + (q.pads + 1) }
  else
    match base64Value? c with
    | none => q
    | some v => q.add v

end Quads

/-- `base64.b64decode`; a `binascii.Error` is a `ValueError`. -/
def b64decode (text : List Char) : Except Exc (List UInt8) :=
  if text.all fun c => c.toNat < 128 then
    let q := text.foldl Quads.push .start
    if q.closed || q.position = 0 then .ok q.bytes
    else if q.position = 1 then
      valueError ("Invalid base64-encoded string: number of data characters (" ++
        toString (q.bytes.length / 3 * 4 + 1) ++ ") cannot be 1 more than a multiple of 4")
    else valueError "Incorrect padding"
  else valueError "string argument should contain only ASCII characters"

/-! ### What was written is read -/

theorem base64Value?_base64Char {n : ℕ} (h : n < 64) : base64Value? (base64Char n) = some n := by
  have hall : ∀ n < 64, base64Value? (base64Char n) = some n := by decide
  exact hall n h

theorem base64Char_ne_pad {n : ℕ} (h : n < 64) : base64Char n ≠ '=' := by
  have hall : ∀ n < 64, base64Char n ≠ '=' := by decide
  exact hall n h

namespace Quads

theorem closed_add (q : Quads) (v : ℕ) : (q.add v).closed = q.closed := by
  unfold add
  split <;> rfl

theorem push_base64Char {q : Quads} (hopen : q.closed = false) {n : ℕ} (h : n < 64) :
    q.push (base64Char n) = q.add n := by
  simp [push, hopen, base64Char_ne_pad h, base64Value?_base64Char h]

/-- Characters of the alphabet add their bits. -/
theorem foldl_push_map {q : Quads} (hopen : q.closed = false) {vs : List ℕ} (h : ∀ v ∈ vs, v < 64) :
    (vs.map base64Char).foldl push q = vs.foldl add q := by
  induction vs generalizing q with
  | nil => rfl
  | cons v vs ih =>
    obtain ⟨hv, hvs⟩ := List.forall_mem_cons.1 h
    rw [List.map_cons, List.foldl_cons, push_base64Char hopen hv, ih ((closed_add q v).trans hopen) hvs]
    rfl

/-- What is passed over changes nothing. -/
theorem foldl_push_filter (q : Quads) (text : List Char) :
    (text.filter isBase64).foldl push q = text.foldl push q := by
  induction text generalizing q with
  | nil => rfl
  | cons c text ih =>
    by_cases hc : isBase64 c
    · rw [List.filter_cons_of_pos hc, List.foldl_cons, List.foldl_cons, ih]
    · have hskip : q.push c = q := by
        simp only [isBase64, Bool.or_eq_true, decide_eq_true_eq, Option.isSome_iff_ne_none, not_or,
          not_not] at hc
        simp [push, hc.1, hc.2]
      rw [List.filter_cons_of_neg hc, List.foldl_cons, hskip, ih]

/-- Where a group begins. -/
def written (bytes : List UInt8) : Quads := ⟨bytes, 0, 0, 0, false⟩

theorem ofNat_toNat_eq {n : ℕ} {b : UInt8} (h : n = b.toNat) : UInt8.ofNat n = b := by
  rw [h, UInt8.ofNat_toNat]

theorem foldl_push_group (out : List UInt8) (a b c : UInt8) :
    ([a.toNat / 4, a.toNat % 4 * 16 + b.toNat / 16, b.toNat % 16 * 4 + c.toNat / 64,
      c.toNat % 64].map base64Char).foldl push (written out) = written (out ++ [a, b, c]) := by
  have ha := a.toNat_lt
  have hb := b.toNat_lt
  have hc := c.toNat_lt
  have hfirst : UInt8.ofNat (a.toNat / 4 * 4 + (a.toNat % 4 * 16 + b.toNat / 16) / 16) = a :=
    ofNat_toNat_eq (by omega)
  have hsecond : UInt8.ofNat ((a.toNat % 4 * 16 + b.toNat / 16) % 16 * 16 +
      (b.toNat % 16 * 4 + c.toNat / 64) / 4) = b := ofNat_toNat_eq (by omega)
  have hthird : UInt8.ofNat ((b.toNat % 16 * 4 + c.toNat / 64) % 4 * 64 + c.toNat % 64) = c :=
    ofNat_toNat_eq (by omega)
  rw [foldl_push_map rfl]
  · simp only [List.foldl_cons, List.foldl_nil, written, add, hfirst, hsecond, hthird,
      List.append_assoc, List.cons_append, List.nil_append]
  · simp only [List.forall_mem_cons, List.not_mem_nil, false_implies, implies_true, and_true]
    omega

theorem foldl_push_two (out : List UInt8) (a b : UInt8) :
    ([a.toNat / 4, a.toNat % 4 * 16 + b.toNat / 16, b.toNat % 16 * 4].map base64Char ++ ['=']).foldl
      push (written out) = ⟨out ++ [a, b], 3, 0, 1, true⟩ := by
  have ha := a.toNat_lt
  have hb := b.toNat_lt
  have hfirst : UInt8.ofNat (a.toNat / 4 * 4 + (a.toNat % 4 * 16 + b.toNat / 16) / 16) = a :=
    ofNat_toNat_eq (by omega)
  have hsecond : UInt8.ofNat ((a.toNat % 4 * 16 + b.toNat / 16) % 16 * 16 +
      b.toNat % 16 * 4 / 4) = b := ofNat_toNat_eq (by omega)
  rw [List.foldl_append, foldl_push_map rfl]
  · simp only [List.foldl_cons, List.foldl_nil, written, add, hfirst, hsecond]
    simp [push]
  · simp only [List.forall_mem_cons, List.not_mem_nil, false_implies, implies_true, and_true]
    omega

theorem foldl_push_one (out : List UInt8) (a : UInt8) :
    ([a.toNat / 4, a.toNat % 4 * 16].map base64Char ++ ['=', '=']).foldl push (written out) =
      ⟨out ++ [a], 2, 0, 2, true⟩ := by
  have ha := a.toNat_lt
  have hfirst : UInt8.ofNat (a.toNat / 4 * 4 + a.toNat % 4 * 16 / 16) = a :=
    ofNat_toNat_eq (by omega)
  rw [List.foldl_append, foldl_push_map rfl]
  · simp only [List.foldl_cons, List.foldl_nil, written, add, hfirst]
    simp [push]
  · simp only [List.forall_mem_cons, List.not_mem_nil, false_implies, implies_true, and_true]
    omega

/-- Group by group, the bytes come back; the padding closes the text. -/
theorem foldl_push_b64encode (bytes out : List UInt8) :
    ((b64encode bytes).foldl push (written out)).bytes = out ++ bytes ∧
      (((b64encode bytes).foldl push (written out)).closed = true ∨
        ((b64encode bytes).foldl push (written out)).position = 0) := by
  induction bytes using b64encode.induct generalizing out with
  | case1 a b c rest ih =>
    have hcut : b64encode (a :: b :: c :: rest) =
        [a.toNat / 4, a.toNat % 4 * 16 + b.toNat / 16, b.toNat % 16 * 4 + c.toNat / 64,
          c.toNat % 64].map base64Char ++ b64encode rest := rfl
    rw [hcut, List.foldl_append, foldl_push_group]
    simpa using ih (out ++ [a, b, c])
  | case2 a b =>
    rw [show b64encode [a, b] = [a.toNat / 4, a.toNat % 4 * 16 + b.toNat / 16,
      b.toNat % 16 * 4].map base64Char ++ ['='] from rfl, foldl_push_two]
    exact ⟨rfl, .inl rfl⟩
  | case3 a =>
    rw [show b64encode [a] = [a.toNat / 4, a.toNat % 4 * 16].map base64Char ++ ['=', '='] from rfl,
      foldl_push_one]
    exact ⟨rfl, .inl rfl⟩
  | case4 => exact ⟨(List.append_nil out).symm, .inr rfl⟩

end Quads

/-- **What was encoded is decoded**, whatever else stands between the characters. -/
theorem b64decode_of_filter {text : List Char} {bytes : List UInt8}
    (hascii : ∀ c ∈ text, c.toNat < 128) (h : text.filter isBase64 = b64encode bytes) :
    b64decode text = .ok bytes := by
  obtain ⟨hbytes, hend⟩ := Quads.foldl_push_b64encode bytes []
  change ((b64encode bytes).foldl Quads.push .start).bytes = _ at hbytes
  change ((b64encode bytes).foldl Quads.push .start).closed = _ ∨
    ((b64encode bytes).foldl Quads.push .start).position = _ at hend
  rw [← h, Quads.foldl_push_filter] at hbytes hend
  have hall : (text.all fun c => c.toNat < 128) = true := by simpa using hascii
  rw [b64decode, if_pos hall]
  have hdone : ((text.foldl Quads.push .start).closed ||
      decide ((text.foldl Quads.push .start).position = 0)) = true := by
    rcases hend with hclosed | hposition
    · rw [hclosed, Bool.true_or]
    · rw [decide_eq_true hposition, Bool.or_true]
  rw [if_pos hdone, hbytes, List.nil_append]

/-- What holds of the alphabet and of the padding holds of every character that is written. -/
theorem forall_b64encode {P : Char → Prop} (hpad : P '=') (hchar : ∀ n < 64, P (base64Char n))
    (bytes : List UInt8) : ∀ c ∈ b64encode bytes, P c := by
  induction bytes using b64encode.induct with
  | case1 a b c rest ih =>
    have ha := a.toNat_lt
    have hb := b.toNat_lt
    have hc := c.toNat_lt
    simp only [b64encode, List.forall_mem_cons]
    exact ⟨hchar _ (by omega), hchar _ (by omega), hchar _ (by omega), hchar _ (by omega), ih⟩
  | case2 a b =>
    have ha := a.toNat_lt
    have hb := b.toNat_lt
    simp only [b64encode, List.forall_mem_cons]
    exact ⟨hchar _ (by omega), hchar _ (by omega), hchar _ (by omega), hpad, by simp⟩
  | case3 a =>
    have ha := a.toNat_lt
    simp only [b64encode, List.forall_mem_cons]
    exact ⟨hchar _ (by omega), hchar _ (by omega), hpad, hpad, by simp⟩
  | case4 => simp [b64encode]

example : b64decode "Zm9v\nYmE=\n".toList = .ok [0x66, 0x6f, 0x6f, 0x62, 0x61] := by decide

end Py
