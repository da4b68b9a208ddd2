import K8Labs.Firmware.SignatureList
import K8Labs.Python.Base64
import K8Labs.Python.FileSystem

/-!
# Certificates in PEM

`read_der_certificate` of `scripts/edk2_esl.py`.  A `Pem` is a file with a certificate in any of the
shapes in which tools write it: other text around it, lines of any length, either line ending.
`derCertificate_file` : **each of them is read to the certificate it carries.**
-/

namespace Firmware

open Py (Exc Path valueError)

/-- The line before a certificate. -/
def beginMarker : List Char := "-----BEGIN CERTIFICATE-----".toList

/-- The line after a certificate. -/
def endMarker : List Char := "-----END CERTIFICATE-----".toList

/-- The bytes of a text in ASCII. -/
def asciiBytes (text : List Char) : List UInt8 := text.map fun c => UInt8.ofNat c.toNat

/-- `raw.decode("ascii")`. -/
def decodeAscii (raw : List UInt8) : Except Exc (List Char) :=
  if raw.all (· < 128) then .ok (raw.map fun byte => Char.ofNat byte.toNat)
  else .error ⟨.unicodeDecodeError, "'ascii' codec can't decode the bytes"⟩

/-- The loop over the lines: what is added to `body`. -/
def pemBody : Bool → List String → List String
  | _, [] => []
  | inside, line :: lines =>
    if beginMarker <+: line.toList then pemBody true lines
    else if endMarker <+: line.toList then []
    else if inside then Py.strip line :: pemBody true lines
    else pemBody false lines

/-- `read_der_certificate`, of the bytes of the file. -/
def derCertificate (path : Path) (raw : List UInt8) : Except Exc (List UInt8) :=
  if ¬ asciiBytes beginMarker <:+: raw then .ok raw
  else
    (decodeAscii raw).bind fun text =>
    match pemBody false (Py.splitLines (String.ofList text)) with
    | [] => valueError ("no certificate body found in " ++ path.text)
    | body => Py.b64decode (body.flatMap String.toList)

/-! ### PEM files -/

/-- A line that is neither of the two markers. -/
def Unmarked (line : List Char) : Prop := ¬ beginMarker <+: line ∧ ¬ endMarker <+: line

/-- A line of ASCII characters. -/
def Printable (line : List Char) : Prop := ∀ c ∈ line, c.toNat < 128 ∧ Py.isLineBoundary c = false

/-- A file with a certificate in PEM. -/
structure Pem (der : List UInt8) where
  before : List (List Char)
  body : List (List Char)
  after : List (List Char)
  /-- Lines end in a carriage return and a newline. -/
  crlf : Bool
  before_unmarked : ∀ line ∈ before, Unmarked line
  body_unmarked : ∀ line ∈ body, Unmarked line
  body_ne_nil : body ≠ []
  before_printable : ∀ line ∈ before, Printable line
  body_printable : ∀ line ∈ body, Printable line
  after_printable : ∀ line ∈ after, Printable line
  /-- The lines of the body are the base64 of the certificate. -/
  carries : body.flatten.filter Py.isBase64 = Py.b64encode der

namespace Pem

variable {der : List UInt8}

def lines (pem : Pem der) : List (List Char) :=
  pem.before ++ beginMarker :: (pem.body ++ endMarker :: pem.after)

/-- The end of a line. -/
def newline (pem : Pem der) : List Char := if pem.crlf then ['\r', '\n'] else ['\n']

def text (pem : Pem der) : List Char := pem.lines.flatMap fun line => line ++ pem.newline

/-- The bytes of the file. -/
def file (pem : Pem der) : List UInt8 := asciiBytes pem.text

end Pem

/-! ### The text comes back -/

theorem decodeAscii_asciiBytes {text : List Char} (h : ∀ c ∈ text, c.toNat < 128) :
    decodeAscii (asciiBytes text) = .ok text := by
  have hbyte : ∀ c ∈ text, (UInt8.ofNat c.toNat).toNat = c.toNat := fun c hc =>
    UInt8.toNat_ofNat_of_lt' ((h c hc).trans (by decide))
  have hall : ((asciiBytes text).all (· < 128)) = true := by
    simp only [asciiBytes, List.all_map, List.all_eq_true, Function.comp, decide_eq_true_eq]
    intro c hc
    rw [UInt8.lt_iff_toNat_lt, hbyte c hc]
    exact h c hc
  rw [decodeAscii, if_pos hall, asciiBytes, List.map_map]
  refine congrArg Except.ok ?_
  refine (List.map_congr_left fun c hc => ?_).trans (List.map_id text)
  change Char.ofNat (UInt8.ofNat c.toNat).toNat = c
  rw [hbyte c hc, Char.ofNat_toNat]

theorem isBase64_of_isSpace {c : Char} (h : Py.isSpace c = true) : Py.isBase64 c = false := by
  have hall : ∀ n ∈ [0x9, 0xa, 0xb, 0xc, 0xd, 0x1c, 0x1d, 0x1e, 0x1f, 0x20, 0x85, 0xa0, 0x1680, 0x2000,
      0x2001, 0x2002, 0x2003, 0x2004, 0x2005, 0x2006, 0x2007, 0x2008, 0x2009, 0x200a, 0x2028, 0x2029,
      0x202f, 0x205f, 0x3000], Py.isBase64 (Char.ofNat n) = false := by decide
  rw [← Char.ofNat_toNat c]
  exact hall _ (List.contains_iff_mem.1 h)

theorem filter_dropWhile_isSpace (cs : List Char) :
    (cs.dropWhile Py.isSpace).filter Py.isBase64 = cs.filter Py.isBase64 := by
  induction cs with
  | nil => rfl
  | cons c cs ih =>
    by_cases hc : Py.isSpace c = true
    · rw [List.dropWhile_cons_of_pos hc, ih,
        List.filter_cons_of_neg (by rw [isBase64_of_isSpace hc]; decide)]
    · rw [List.dropWhile_cons_of_neg hc]

/-- Stripping a line takes away nothing that is decoded. -/
theorem filter_strip (line : List Char) :
    (Py.strip (String.ofList line)).toList.filter Py.isBase64 = line.filter Py.isBase64 := by
  rw [Py.strip, String.toList_ofList, String.toList_ofList, List.filter_reverse,
    filter_dropWhile_isSpace, List.filter_reverse, List.reverse_reverse, filter_dropWhile_isSpace]

theorem mem_of_mem_strip {c : Char} {line : List Char}
    (h : c ∈ (Py.strip (String.ofList line)).toList) : c ∈ line := by
  rw [Py.strip, String.toList_ofList, String.toList_ofList, List.mem_reverse] at h
  exact List.dropWhile_subset _ (List.mem_reverse.1 (List.dropWhile_subset _ h))

theorem printable_of_all {line : List Char}
    (h : line.all (fun c => c.toNat < 128 && !Py.isLineBoundary c) = true) : Printable line := by
  intro c hc
  have hall := List.all_eq_true.1 h c hc
  rw [Bool.and_eq_true, decide_eq_true_iff, Bool.not_eq_true'] at hall
  exact hall

namespace Pem

variable {der : List UInt8} (pem : Pem der)

theorem printable_lines : ∀ line ∈ pem.lines, Printable line := by
  have hbegin : Printable beginMarker := printable_of_all (by decide)
  have hend : Printable endMarker := printable_of_all (by decide)
  intro line hline
  simp only [lines, List.mem_append, List.mem_cons] at hline
  rcases hline with hline | rfl | hline | rfl | hline
  · exact pem.before_printable line hline
  · exact hbegin
  · exact pem.body_printable line hline
  · exact hend
  · exact pem.after_printable line hline

theorem ascii_text : ∀ c ∈ pem.text, c.toNat < 128 := by
  intro c hc
  obtain ⟨line, hline, hc⟩ := List.mem_flatMap.1 hc
  rcases List.mem_append.1 hc with hc | hc
  · exact (pem.printable_lines line hline c hc).1
  · have hends : ∀ c ∈ ['\r', '\n'], c.toNat < 128 := by
      rw [List.forall_mem_cons, List.forall_mem_singleton]
      decide
    refine hends c ?_
    rw [newline] at hc
    split_ifs at hc
    · exact hc
    · exact List.mem_cons_of_mem _ hc

/-- A line before a line ending of either kind. -/
theorem collapseCrLf_newline {line : List Char} (h : Printable line) (rest : List Char) :
    Py.collapseCrLf (line ++ pem.newline ++ rest) = line ++ '\n' :: Py.collapseCrLf rest := by
  have hnewline : '\n' ∉ line := fun hmem => absurd (h _ hmem).2 (by decide)
  have hreturn : '\r' ∉ line := fun hmem => absurd (h _ hmem).2 (by decide)
  have hlast : line.getLast? ≠ some '\r' := fun heq => hreturn (List.mem_of_getLast? heq)
  unfold newline
  split_ifs
  · clear hnewline hlast h
    induction line with
    | nil => rfl
    | cons c line ih =>
      rw [List.mem_cons, not_or] at hreturn
      change Py.collapseCrLf (c :: (line ++ ['\r', '\n'] ++ rest)) = _
      rw [Py.collapseCrLf, ih hreturn.2]
      · rfl
      · rintro _ rfl -
        exact hreturn.1 rfl
  · rw [List.append_assoc]
    exact Py.collapseCrLf_line hnewline hlast rest

theorem splitLines_text : Py.splitLines (String.ofList pem.text) = pem.lines.map String.ofList := by
  have hcollapse : ∀ lines : List (List Char), (∀ line ∈ lines, Printable line) →
      Py.collapseCrLf (lines.flatMap fun line => line ++ pem.newline) =
        lines.flatMap fun line => line ++ ['\n'] := by
    intro lines hlines
    induction lines with
    | nil => rfl
    | cons line lines ih =>
      obtain ⟨hline, hlines⟩ := List.forall_mem_cons.1 hlines
      rw [List.flatMap_cons, pem.collapseCrLf_newline hline, ih hlines]
      simp
  rw [Py.splitLines, String.toList_ofList, text, hcollapse _ pem.printable_lines,
    Py.breakLines_flatMap fun line hline c hc => (pem.printable_lines line hline c hc).2]

theorem beginMarker_mem : asciiBytes beginMarker <:+: pem.file := by
  have hline : beginMarker ∈ pem.lines := by simp [lines]
  obtain ⟨front, back, hlines⟩ := List.append_of_mem hline
  refine ⟨asciiBytes (front.flatMap fun line => line ++ pem.newline),
    asciiBytes (pem.newline ++ back.flatMap fun line => line ++ pem.newline), ?_⟩
  simp [file, text, hlines, asciiBytes]

/-! ### The certificate comes back -/

theorem pemBody_before {lines : List (List Char)} (h : ∀ line ∈ lines, Unmarked line)
    (rest : List String) : pemBody false (lines.map String.ofList ++ rest) = pemBody false rest := by
  induction lines with
  | nil => rfl
  | cons line lines ih =>
    obtain ⟨⟨hbegin, hend⟩, hlines⟩ := List.forall_mem_cons.1 h
    rw [List.map_cons, List.cons_append, pemBody, String.toList_ofList, if_neg hbegin, if_neg hend,
      if_neg Bool.false_ne_true, ih hlines]

theorem pemBody_inside {lines : List (List Char)} (h : ∀ line ∈ lines, Unmarked line)
    (rest : List String) : pemBody true (lines.map String.ofList ++ rest) =
      lines.map (fun line => Py.strip (String.ofList line)) ++ pemBody true rest := by
  induction lines with
  | nil => rfl
  | cons line lines ih =>
    obtain ⟨⟨hbegin, hend⟩, hlines⟩ := List.forall_mem_cons.1 h
    rw [List.map_cons, List.cons_append, pemBody, String.toList_ofList, if_neg hbegin, if_neg hend,
      if_pos rfl, ih hlines]
    rfl

theorem pemBody_lines : pemBody false (pem.lines.map String.ofList) =
    pem.body.map fun line => Py.strip (String.ofList line) := by
  have hend : ¬ beginMarker <+: endMarker := by decide
  rw [lines, List.map_append, pemBody_before pem.before_unmarked, List.map_cons, pemBody,
    String.toList_ofList, if_pos (List.prefix_refl _), List.map_append,
    pemBody_inside pem.body_unmarked, List.map_cons, pemBody, String.toList_ofList, if_neg hend,
    if_pos (List.prefix_refl _), List.append_nil]

end Pem

/-! ### Lines of one length -/

/-- The characters of a body. -/
theorem printable_b64encode (der : List UInt8) : ∀ c ∈ Py.b64encode der,
    Py.isBase64 c = true ∧ c ≠ '-' ∧ c.toNat < 128 ∧ Py.isLineBoundary c = false :=
  Py.forall_b64encode (by decide) (by decide) der

/-- A certificate as tools write it: nothing around it, and `n` characters on a line. -/
def Pem.wrapped (n : ℕ) (hn : 0 < n) (der : List UInt8) (hder : der ≠ []) : Pem der :=
  have hflatten : (Py.chunks n (Py.b64encode der)).flatten = Py.b64encode der :=
    Py.flatten_chunks hn _
  have hmem : ∀ line ∈ Py.chunks n (Py.b64encode der), ∀ c ∈ line, c ∈ Py.b64encode der :=
    fun line hline c hc => hflatten ▸ List.mem_flatten.2 ⟨line, hline, hc⟩
  { before := []
    body := Py.chunks n (Py.b64encode der)
    after := []
    crlf := false
    before_unmarked := by simp
    body_unmarked := by
      have hdash : ∀ line ∈ Py.chunks n (Py.b64encode der), '-' ∉ line := fun line hline hc =>
        (printable_b64encode der _ (hmem line hline _ hc)).2.1 rfl
      exact fun line hline => ⟨fun hle => hdash line hline (hle.subset (by decide)),
        fun hle => hdash line hline (hle.subset (by decide))⟩
    body_ne_nil := by
      intro hnil
      rw [hnil, List.flatten_nil] at hflatten
      revert hflatten
      cases der using Py.b64encode.induct <;> simp_all [Py.b64encode]
    before_printable := by simp
    body_printable := fun line hline c hc => (printable_b64encode der c (hmem line hline c hc)).2.2
    after_printable := by simp
    carries := by
      rw [hflatten, List.filter_eq_self]
      exact fun c hc => (printable_b64encode der c hc).1 }

/-- **A PEM file is read to the certificate it carries.** -/
theorem derCertificate_file {der : List UInt8} (pem : Pem der) (path : Path) :
    derCertificate path pem.file = .ok der := by
  have hne : pem.body.map (fun line => Py.strip (String.ofList line)) ≠ [] := by
    simpa using pem.body_ne_nil
  have hascii : ∀ c ∈ (pem.body.map fun line => Py.strip (String.ofList line)).flatMap String.toList,
      c.toNat < 128 := by
    intro c hc
    obtain ⟨stripped, hstripped, hc⟩ := List.mem_flatMap.1 hc
    obtain ⟨line, hline, rfl⟩ := List.mem_map.1 hstripped
    exact (pem.body_printable line hline c (mem_of_mem_strip hc)).1
  have hfilter : ((pem.body.map fun line => Py.strip (String.ofList line)).flatMap
      String.toList).filter Py.isBase64 = Py.b64encode der := by
    rw [← pem.carries, List.flatMap_map, List.filter_flatMap, ← List.flatMap_id, List.filter_flatMap]
    exact congrArg (fun f => pem.body.flatMap f) (funext filter_strip)
  rw [derCertificate, if_neg (not_not.2 pem.beginMarker_mem), Pem.file,
    decodeAscii_asciiBytes pem.ascii_text]
  change (match pemBody false (Py.splitLines (String.ofList pem.text)) with
    | [] => valueError ("no certificate body found in " ++ path.text)
    | body => Py.b64decode (body.flatMap String.toList)) = _
  rw [pem.splitLines_text, pem.pemBody_lines]
  split
  · rename_i hnil
    exact absurd hnil hne
  · exact Py.b64decode_of_filter hascii hfilter

end Firmware
