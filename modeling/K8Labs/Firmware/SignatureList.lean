import K8Labs.Python.Bytes
import K8Labs.Python.Text
import Mathlib.Tactic.NormNum

/-!
# EFI signature lists

`scripts/edk2_esl.py`: one `EFI_SIGNATURE_LIST` from certificates of equal length, and the C header
that carries signature lists as byte arrays.  The owner of the entries is a constant of the source,
of which it says that any GUID is valid; here it is an argument.

* `decode` reads bytes by the layout of `EFI_SIGNATURE_LIST`: the type, three little-endian sizes, a
  header, and entries of an owner and a certificate.
* `readArrays` reads the byte arrays of a C header.
* `decode_buildSignatureList` is the result: **what is built is decoded to the type, the owner and
  the certificates in order, with sizes that agree with the length, and the header carries the same
  bytes; a list that does not fit the size field is refused.**
-/

namespace Firmware

open Py (Exc valueError)

/-! ### GUIDs -/

/-- A GUID, as `EFI_GUID` has it: three integers and eight bytes. -/
structure Guid where
  data1 : UInt32
  data2 : UInt16
  data3 : UInt16
  data4 : List UInt8
  length_data4 : data4.length = 8
  deriving DecidableEq

namespace Guid

/-- The five groups of hexadecimal digits. -/
def groups (g : Guid) : List (List Char) :=
  [Py.hexDigits 8 g.data1.toNat, Py.hexDigits 4 g.data2.toNat, Py.hexDigits 4 g.data3.toNat,
    (g.data4.take 2).flatMap Py.byteHex, (g.data4.drop 2).flatMap Py.byteHex]

/-- The text of a GUID. -/
def text (g : Guid) : String := String.ofList (['-'].intercalate g.groups)

/-- The sixteen bytes of an `EFI_GUID`. -/
def bytes (g : Guid) : List UInt8 :=
  Py.littleEndian 4 g.data1.toNat ++ Py.littleEndian 2 g.data2.toNat ++
    Py.littleEndian 2 g.data3.toNat ++ g.data4

/-- The `EFI_GUID` that sixteen bytes are. -/
def ofBytes (bs : List UInt8) : Option Guid :=
  if h : bs.length = 16 then
    some
      { data1 := UInt32.ofNat (Py.fromLittleEndian (bs.take 4))
        data2 := UInt16.ofNat (Py.fromLittleEndian ((bs.drop 4).take 2))
        data3 := UInt16.ofNat (Py.fromLittleEndian ((bs.drop 6).take 2))
        data4 := bs.drop 8
        length_data4 := by rw [List.length_drop, h] }
  else none

@[simp] theorem length_bytes (g : Guid) : g.bytes.length = 16 := by simp [bytes, g.length_data4]

theorem data1_lt (g : Guid) : g.data1.toNat < 256 ^ 4 :=
  g.data1.toNat_lt.trans_eq (by norm_num)

theorem data2_lt (g : Guid) : g.data2.toNat < 256 ^ 2 :=
  g.data2.toNat_lt.trans_eq (by norm_num)

theorem data3_lt (g : Guid) : g.data3.toNat < 256 ^ 2 :=
  g.data3.toNat_lt.trans_eq (by norm_num)

theorem ofBytes_bytes (g : Guid) : ofBytes g.bytes = some g := by
  have hdrop : ∀ w n k, w ≤ k → (Py.littleEndian w n).drop k = [] := fun w n k h =>
    List.drop_of_length_le (by rwa [Py.length_littleEndian])
  rw [ofBytes, dif_pos g.length_bytes]
  simp [bytes, List.drop_append, hdrop,
    Py.fromLittleEndian_littleEndian g.data1_lt, Py.fromLittleEndian_littleEndian g.data2_lt,
    Py.fromLittleEndian_littleEndian g.data3_lt]

end Guid

/-- The bytes of a GUID, from the five parts of its text. -/
def partsBytes (value : String) (part0 part1 part2 part3 part4 : List Char) :
    Except Exc (List UInt8) := do
  let data1 ← Py.parseHex part0
  let data2 ← Py.parseHex part1
  let data3 ← Py.parseHex part2
  let data4 ← Py.fromHex (part3 ++ part4)
  if data4.length ≠ 8 then valueError ("invalid GUID: " ++ Py.quoted value)
  else do
    let first ← Py.packUnsigned 4 data1
    let second ← Py.packUnsigned 2 data2
    let third ← Py.packUnsigned 2 data3
    .ok (first ++ second ++ third ++ data4)

/-- `guid_bytes`. -/
def guidBytes (value : String) : Except Exc (List UInt8) :=
  match (Py.strip value).toList.splitOn '-' with
  | [part0, part1, part2, part3, part4] => partsBytes value part0 part1 part2 part3 part4
  | _ => valueError ("invalid GUID: " ++ Py.quoted value)

theorem ok_bind {α β : Type} (a : α) (f : α → Except Exc β) : (Except.ok a >>= f) = f a := rfl

/-- The characters of the text of a GUID. -/
theorem mem_groups {g : Guid} {group : List Char} (h : group ∈ g.groups) {c : Char}
    (hc : c ∈ group) : ∃ d < 16, c = Py.hexDigit d := by
  have hbytes : ∀ bs : List UInt8, c ∈ bs.flatMap Py.byteHex → ∃ d < 16, c = Py.hexDigit d := by
    intro bs hmem
    obtain ⟨b, -, hb⟩ := List.mem_flatMap.1 hmem
    exact Py.mem_hexDigits hb
  simp only [Guid.groups, List.mem_cons, List.not_mem_nil, or_false] at h
  rcases h with rfl | rfl | rfl | rfl | rfl
  · exact Py.mem_hexDigits hc
  · exact Py.mem_hexDigits hc
  · exact Py.mem_hexDigits hc
  · exact hbytes _ hc
  · exact hbytes _ hc

/-- **Every GUID is serialised from its text.** -/
theorem guidBytes_text (g : Guid) : guidBytes g.text = .ok g.bytes := by
  have hspace : ∀ c ∈ ['-'].intercalate g.groups, Py.isSpace c = false := by
    intro c hc
    rcases Py.mem_intercalate hc with hc | ⟨group, hgroup, hc⟩
    · rw [List.mem_singleton.1 hc]
      decide
    · obtain ⟨d, hd, rfl⟩ := mem_groups hgroup hc
      exact Py.forall_hexDigit (P := fun d => Py.isSpace (Py.hexDigit d) = false) (by decide) hd
  have hdash : ∀ group ∈ g.groups, '-' ∉ group := by
    intro group hgroup hc
    obtain ⟨d, hd, heq⟩ := mem_groups hgroup hc
    exact Py.forall_hexDigit (P := fun d => '-' ≠ Py.hexDigit d) (by decide) hd heq
  have hsplit : (['-'].intercalate g.groups).splitOn '-' = g.groups :=
    List.splitOn_intercalate '-' hdash (by simp [Guid.groups])
  have h₁ : Py.parseHex (Py.hexDigits 8 g.data1.toNat) = .ok g.data1.toNat :=
    Py.parseHex_hexDigits (by decide) (g.data1_lt.trans_eq (by norm_num))
  have h₂ : Py.parseHex (Py.hexDigits 4 g.data2.toNat) = .ok g.data2.toNat :=
    Py.parseHex_hexDigits (by decide) (g.data2_lt.trans_eq (by norm_num))
  have h₃ : Py.parseHex (Py.hexDigits 4 g.data3.toNat) = .ok g.data3.toNat :=
    Py.parseHex_hexDigits (by decide) (g.data3_lt.trans_eq (by norm_num))
  have h₄ : Py.fromHex ((g.data4.take 2).flatMap Py.byteHex ++ (g.data4.drop 2).flatMap Py.byteHex)
      = .ok g.data4 := by
    rw [← List.flatMap_append, List.take_append_drop, Py.fromHex_byteHex]
  rw [guidBytes, Guid.text, Py.strip_eq_self hspace, String.toList_ofList, hsplit]
  show partsBytes _ _ _ _ _ _ = _
  rw [partsBytes, h₁, ok_bind, h₂, ok_bind, h₃, ok_bind, h₄, ok_bind,
    if_neg (not_not.2 g.length_data4), Py.packUnsigned_of_lt g.data1_lt, ok_bind,
    Py.packUnsigned_of_lt g.data2_lt, ok_bind, Py.packUnsigned_of_lt g.data3_lt, ok_bind, Guid.bytes]

/-! ### The encoder -/

/-- `EFI_CERT_X509_GUID`. -/
def efiCertX509Guid : String := "a5c059a1-94e4-4aa7-87b5-ab155c2bf072"

/-- `K8LABS_OWNER_GUID`. -/
def k8labsOwnerGuid : String := "6b1b3c1e-6f4a-4c8e-9b2d-0f7a5c3e1d42"

/-- The type of X.509 certificates. -/
def x509 : Guid where
  data1 := 0xa5c059a1
  data2 := 0x94e4
  data3 := 0x4aa7
  data4 := [0x87, 0xb5, 0xab, 0x15, 0x5c, 0x2b, 0xf0, 0x72]
  length_data4 := rfl

/-- The owner that the source records. -/
def k8labsOwner : Guid where
  data1 := 0x6b1b3c1e
  data2 := 0x6f4a
  data3 := 0x4c8e
  data4 := [0x9b, 0x2d, 0x0f, 0x7a, 0x5c, 0x3e, 0x1d, 0x42]
  length_data4 := rfl

theorem text_x509 : x509.text = efiCertX509Guid := by decide

theorem text_k8labsOwner : k8labsOwner.text = k8labsOwnerGuid := by decide

/-- `build_signature_list`, for the GUID that the source has as `K8LABS_OWNER_GUID`. -/
def buildSignatureListFor (ownerGuid : String) (certificates : List (List UInt8)) :
    Except Exc (List UInt8) :=
  match certificates with
  | [] => valueError "at least one certificate is required"
  | first :: _ => do
    let owner ← guidBytes ownerGuid
    let entries := certificates.flatMap fun cert => owner ++ cert
    let signatureSize := owner.length + first.length
    if certificates.any fun cert => owner.length + cert.length ≠ signatureSize then
      valueError "all certificates in one list must have equal size"
    else do
      let header ← guidBytes efiCertX509Guid
      let listSize ← Py.packUnsigned 4 (16 + 4 + 4 + 4 + entries.length : ℕ)
      let headerSize ← Py.packUnsigned 4 0
      let size ← Py.packUnsigned 4 signatureSize
      .ok (header ++ (listSize ++ headerSize ++ size) ++ entries)

/-- `build_signature_list`. -/
def buildSignatureList (certificates : List (List UInt8)) : Except Exc (List UInt8) :=
  buildSignatureListFor k8labsOwnerGuid certificates

/-! ### The layout -/

/-- What the layout of `EFI_SIGNATURE_LIST` reads in some bytes. -/
structure SignatureList where
  signatureType : Guid
  listSize : ℕ
  headerSize : ℕ
  signatureSize : ℕ
  header : List UInt8
  /-- The owner and the data of each entry. -/
  signatures : List (Guid × List UInt8)
  deriving DecidableEq

/-- `EFI_SIGNATURE_DATA`: the owner and the data. -/
def decodeSignature (entry : List UInt8) : Option (Guid × List UInt8) :=
  (Guid.ofBytes (entry.take 16)).map fun owner => (owner, entry.drop 16)

/-- The one signature list that some bytes are, if their sizes agree with their length. -/
def decode (bs : List UInt8) : Option SignatureList :=
  let listSize := Py.fromLittleEndian ((bs.drop 16).take 4)
  let headerSize := Py.fromLittleEndian ((bs.drop 20).take 4)
  let signatureSize := Py.fromLittleEndian ((bs.drop 24).take 4)
  let entries := bs.drop (28 + headerSize)
  if bs.length = listSize ∧ 28 + headerSize ≤ listSize ∧ 16 ≤ signatureSize ∧
      entries.length % signatureSize = 0 then
    (Guid.ofBytes (bs.take 16)).bind fun signatureType =>
    ((Py.chunks signatureSize entries).mapM decodeSignature).map fun signatures =>
    { signatureType, listSize, headerSize, signatureSize
      header := (bs.drop 28).take headerSize
      signatures }
  else none

theorem decodeSignature_append (owner : Guid) (cert : List UInt8) :
    decodeSignature (owner.bytes ++ cert) = some (owner, cert) := by
  rw [decodeSignature, List.take_left' owner.length_bytes, List.drop_left' owner.length_bytes,
    Guid.ofBytes_bytes]
  rfl

theorem mapM_decodeSignature (owner : Guid) (certificates : List (List UInt8)) :
    (certificates.map (owner.bytes ++ ·)).mapM decodeSignature =
      some (certificates.map fun cert => (owner, cert)) := by
  induction certificates with
  | nil => rfl
  | cons cert certificates ih =>
    rw [List.map_cons, List.mapM_cons, decodeSignature_append, ih]
    rfl

/-! ### What is built is decoded -/

section Build

variable {owner : Guid} {spelling : String} {certificates : List (List UInt8)} {n : ℕ}

/-- The bytes of a list of so many entries, and of the entries themselves. -/
def listBytes (owner : Guid) (n : ℕ) (certificates : List (List UInt8)) : List UInt8 :=
  x509.bytes ++ (Py.littleEndian 4 (28 + certificates.length * (16 + n)) ++ Py.littleEndian 4 0 ++
    Py.littleEndian 4 (16 + n)) ++ (certificates.map (owner.bytes ++ ·)).flatten

theorem length_entry (hequal : ∀ cert ∈ certificates, cert.length = n) :
    ∀ entry ∈ certificates.map (owner.bytes ++ ·), entry.length = 16 + n := by
  intro entry hentry
  obtain ⟨cert, hcert, rfl⟩ := List.mem_map.1 hentry
  rw [List.length_append, owner.length_bytes, hequal cert hcert]

theorem length_entries (hequal : ∀ cert ∈ certificates, cert.length = n) :
    (certificates.map (owner.bytes ++ ·)).flatten.length = certificates.length * (16 + n) := by
  rw [List.length_flatten, List.map_congr_left (length_entry hequal), List.map_const',
    List.sum_replicate_nat, List.length_map]

theorem length_listBytes (hequal : ∀ cert ∈ certificates, cert.length = n) :
    (listBytes owner n certificates).length = 28 + certificates.length * (16 + n) := by
  simp only [listBytes, List.length_append, Guid.length_bytes, Py.length_littleEndian,
    length_entries hequal]

/-- A size field. -/
theorem packUnsigned_four (k : ℕ) :
    Py.packUnsigned 4 (k : ℤ) =
      if k < 2 ^ 32 then .ok (Py.littleEndian 4 k)
      else .error ⟨.structError, "argument out of range"⟩ := by
  have hpow : 256 ^ 4 = 2 ^ 32 := by norm_num
  split_ifs with h
  · exact Py.packUnsigned_of_lt (h.trans_eq hpow.symm)
  · exact Py.packUnsigned_of_le (hpow.trans_le (not_lt.1 h))

/-- The builder packs the sizes that the layout asks for, if they fit. -/
theorem buildSignatureListFor_eq (hspelling : guidBytes spelling = .ok owner.bytes)
    (hne : certificates ≠ []) (hequal : ∀ cert ∈ certificates, cert.length = n) :
    buildSignatureListFor spelling certificates =
      if 28 + certificates.length * (16 + n) < 2 ^ 32 then .ok (listBytes owner n certificates)
      else .error ⟨.structError, "argument out of range"⟩ := by
  have hx509 : guidBytes efiCertX509Guid = .ok x509.bytes := by
    rw [← text_x509, guidBytes_text]
  have hentries : (certificates.flatMap fun cert => owner.bytes ++ cert).length =
      certificates.length * (16 + n) := length_entries hequal
  obtain ⟨first, rest, hcons⟩ := List.exists_cons_of_ne_nil hne
  have hfirst : first.length = n := hequal first (hcons ▸ List.mem_cons_self)
  have hany : (certificates.any fun cert => owner.bytes.length + cert.length ≠
      owner.bytes.length + first.length) = false := by
    rw [List.any_eq_false]
    intro cert hcert
    rw [hequal cert hcert, hfirst]
    simp
  -- the size of one entry fits when the size of the list does, so the list decides
  have hsize : Py.packUnsigned 4 (owner.bytes.length + first.length : ℕ) =
      if 16 + n < 2 ^ 32 then .ok (Py.littleEndian 4 (16 + n))
      else .error ⟨.structError, "argument out of range"⟩ := by
    rw [owner.length_bytes, hfirst]
    exact packUnsigned_four _
  have hlist : Py.packUnsigned 4
      (16 + 4 + 4 + 4 + (certificates.flatMap fun cert => owner.bytes ++ cert).length : ℕ) =
      if 28 + certificates.length * (16 + n) < 2 ^ 32 then
        .ok (Py.littleEndian 4 (28 + certificates.length * (16 + n)))
      else .error ⟨.structError, "argument out of range"⟩ := by
    rw [hentries]
    exact packUnsigned_four _
  have hlarge : 1 ≤ certificates.length := by
    rw [hcons, List.length_cons]
    omega
  unfold buildSignatureListFor
  rw [hcons]
  dsimp only
  rw [← hcons, hspelling, ok_bind, if_neg (by rw [hany]; simp), hx509, ok_bind, hlist]
  split_ifs with hfits
  · have hfits' : 16 + n < 2 ^ 32 := by
      have := Nat.le_mul_of_pos_left (16 + n) hlarge
      omega
    rw [ok_bind, hsize, if_pos hfits']
    rfl
  · rfl

theorem decode_listBytes (hequal : ∀ cert ∈ certificates, cert.length = n)
    (hne : certificates ≠ []) (hfits : 28 + certificates.length * (16 + n) < 2 ^ 32) :
    decode (listBytes owner n certificates) = some
      { signatureType := x509
        listSize := (listBytes owner n certificates).length
        headerSize := 0
        signatureSize := 16 + n
        header := []
        signatures := certificates.map fun cert => (owner, cert) } := by
  have hpow : 2 ^ 32 = 256 ^ 4 := by norm_num
  have hlarge : 16 + n ≤ certificates.length * (16 + n) :=
    Nat.le_mul_of_pos_left _ (List.length_pos_of_ne_nil hne)
  -- the three sizes, and what is left after each of them
  obtain ⟨a, ha⟩ : ∃ a, Py.littleEndian 4 (28 + certificates.length * (16 + n)) = a := ⟨_, rfl⟩
  obtain ⟨b, hb⟩ : ∃ b, Py.littleEndian 4 0 = b := ⟨_, rfl⟩
  obtain ⟨c, hc⟩ : ∃ c, Py.littleEndian 4 (16 + n) = c := ⟨_, rfl⟩
  obtain ⟨e, he⟩ : ∃ e, (certificates.map (owner.bytes ++ ·)).flatten = e := ⟨_, rfl⟩
  have hla : a.length = 4 := ha ▸ Py.length_littleEndian _ _
  have hlb : b.length = 4 := hb ▸ Py.length_littleEndian _ _
  have hlc : c.length = 4 := hc ▸ Py.length_littleEndian _ _
  have hbytes : listBytes owner n certificates = x509.bytes ++ (a ++ (b ++ (c ++ e))) := by
    simp only [listBytes, ha, hb, hc, he, List.append_assoc]
  have h16 : (listBytes owner n certificates).drop 16 = a ++ (b ++ (c ++ e)) := by
    rw [hbytes, List.drop_left' x509.length_bytes]
  have h20 : (listBytes owner n certificates).drop 20 = b ++ (c ++ e) := by
    rw [show 20 = 16 + 4 from rfl, ← List.drop_drop, h16, List.drop_left' hla]
  have h24 : (listBytes owner n certificates).drop 24 = c ++ e := by
    rw [show 24 = 20 + 4 from rfl, ← List.drop_drop, h20, List.drop_left' hlb]
  have h28 : (listBytes owner n certificates).drop 28 = e := by
    rw [show 28 = 24 + 4 from rfl, ← List.drop_drop, h24, List.drop_left' hlc]
  have htype : (listBytes owner n certificates).take 16 = x509.bytes := by
    rw [hbytes, List.take_left' x509.length_bytes]
  have hlist : Py.fromLittleEndian a = 28 + certificates.length * (16 + n) := by
    rw [← ha, Py.fromLittleEndian_littleEndian (hfits.trans_eq hpow)]
  have hheader : Py.fromLittleEndian b = 0 := by
    rw [← hb]
    decide
  have hsize : Py.fromLittleEndian c = 16 + n := by
    rw [← hc, Py.fromLittleEndian_littleEndian (by omega)]
  have hchunks : Py.chunks (16 + n) e = certificates.map (owner.bytes ++ ·) := by
    rw [← he, Py.chunks_flatten (by omega) (length_entry hequal)]
  have hentries : e.length = certificates.length * (16 + n) := by rw [← he, length_entries hequal]
  simp only [decode, h16, h20, h24, htype, List.take_left' hla, List.take_left' hlb,
    List.take_left' hlc, hlist, hheader, hsize, Nat.add_zero, h28, hentries, length_listBytes hequal,
    hchunks, Guid.ofBytes_bytes, mapM_decodeSignature]
  rw [if_pos ⟨trivial, by omega, by omega, Nat.mul_mod_left _ _⟩]
  rfl

end Build

/-! ### The C header -/

/-- The line of some bytes. -/
def chunkLine (chunk : List UInt8) : List Char :=
  "  ".toList ++ ", ".toList.intercalate (chunk.map fun byte => "0x".toList ++ Py.byteHex byte) ++
    ",".toList

/-- The lines of one array. -/
def arrayLines (name : String) (blob : List UInt8) : Except Exc (List (List Char)) :=
  if blob = [] then valueError ("empty signature list for " ++ name)
  else .ok (("STATIC CONST UINT8  ".toList ++ name.toList ++ "[] = \x7b".toList) ::
    (Py.chunks 12 blob).map chunkLine ++
    ["\x7d;".toList, "#define ".toList ++ name.toList ++ "_SIZE  (sizeof (".toList ++ name.toList ++
      "))".toList, []])

/-- The lines before the arrays. -/
def headerLines : List (List Char) :=
  ["/** @file", "  Generated by scripts/edk2_esl.py. Do not edit.", "",
    "  SPDX-License-Identifier: BSD-2-Clause-Patent", "**/", "",
    "#ifndef K8LABS_SECURE_BOOT_KEYS_H_", "#define K8LABS_SECURE_BOOT_KEYS_H_", ""].map String.toList

/-- `to_c_header`. -/
def toCHeader (blobs : List (String × List UInt8)) : Except Exc String :=
  (Py.traverse (fun entry => arrayLines entry.1 entry.2) blobs).map fun arrays =>
    String.ofList (['\n'].intercalate (headerLines ++ arrays.flatten ++ ["#endif".toList, []]))

/-- The name of the array that a line of C opens. -/
def arrayName? (line : List Char) : Option (List Char) :=
  ("STATIC CONST UINT8  ".toList.isPrefixOf? line).bind fun rest =>
    ("[] = \x7b".toList.reverse.isPrefixOf? rest.reverse).map List.reverse

/-- The byte that an integer literal denotes. -/
def byteLiteral? (literal : List Char) : Option UInt8 :=
  match literal with
  | ['0', 'x', high, low] =>
    (Py.asciiHexDigit? high).bind fun high => (Py.asciiHexDigit? low).map fun low =>
      UInt8.ofNat (16 * high + low)
  | _ => none

/-- The initialisers on a line of C, each of which is followed by a comma. -/
def initialisers (line : List Char) : Option (List UInt8) :=
  let parts := (line.splitOn ',').map fun part => part.dropWhile (· == ' ')
  if parts.getLast? = some [] then parts.dropLast.mapM byteLiteral? else none

/-- What a reader of C has read: the arrays that are closed, and the one that is open. -/
structure Reading where
  arrays : List (List Char × List UInt8)
  current : Option (List Char × List UInt8)
  deriving DecidableEq

/-- One line. -/
def readLine (reading : Reading) (line : List Char) : Option Reading :=
  match reading.current with
  | none => some { reading with current := (arrayName? line).map fun name => (name, []) }
  | some (name, bytes) =>
    if line = "\x7d;".toList then some ⟨reading.arrays ++ [(name, bytes)], none⟩
    else (initialisers line).map fun more => ⟨reading.arrays, some (name, bytes ++ more)⟩

/-- The byte arrays that a C header declares. -/
def readArrays (text : String) : Option (List (List Char × List UInt8)) :=
  ((text.toList.splitOn '\n').foldlM readLine ⟨[], none⟩).map Reading.arrays

/-! ### The arrays of the header are read back -/

theorem byteLiteral?_byteHex (b : UInt8) : byteLiteral? ("0x".toList ++ Py.byteHex b) = some b := by
  have hb := b.toNat_lt
  have hhigh : b.toNat / 16 < 16 := by omega
  have hlow : b.toNat % 16 < 16 := Nat.mod_lt _ (by decide)
  rw [Py.byteHex_eq]
  show (Py.asciiHexDigit? _).bind _ = _
  rw [Py.asciiHexDigit?_hexDigit hhigh, Option.bind_some, Py.asciiHexDigit?_hexDigit hlow,
    Option.map_some, Nat.div_add_mod, UInt8.ofNat_toNat]

/-- Parts that a separator ends are split at it. -/
theorem splitOn_flatMap {c : Char} {parts : List (List Char)} (h : ∀ part ∈ parts, c ∉ part) :
    (parts.flatMap fun part => part ++ [c]).splitOn c = parts ++ [[]] := by
  induction parts with
  | nil => rfl
  | cons part parts ih =>
    rw [List.forall_mem_cons] at h
    rw [List.flatMap_cons, List.append_assoc, List.singleton_append,
      List.splitOn_append_cons_self_of_not_mem h.1, ih h.2]
    rfl

/-- Joining with a comma and a space, and a comma at the end: the comma ends every part. -/
theorem intercalate_comma (start part : List Char) (parts : List (List Char)) :
    start ++ ", ".toList.intercalate (part :: parts) ++ ",".toList =
      ((start ++ part) :: parts.map (' ' :: ·)).flatMap fun part => part ++ [','] := by
  induction parts generalizing start part with
  | nil => simp
  | cons next parts ih =>
    -- the space of the separator starts the next part
    calc start ++ ", ".toList.intercalate (part :: next :: parts) ++ ",".toList
        = start ++ part ++ [','] ++ ([' '] ++ ", ".toList.intercalate (next :: parts) ++
            ",".toList) := by
          rw [List.intercalate_cons_cons]
          simp
      _ = _ := by
          rw [ih [' '] next]
          simp

/-- The digits of a byte are no separators. -/
theorem notMem_literal {b : UInt8} {c : Char} (h : c ≠ '0' ∧ c ≠ 'x')
    (hdigit : ∀ d < 16, Py.hexDigit d ≠ c) : c ∉ "0x".toList ++ Py.byteHex b := by
  intro hc
  rcases List.mem_append.1 hc with hc | hc
  · have : c = '0' ∨ c = 'x' := by simpa using hc
    exact this.elim h.1 h.2
  · exact Py.notMem_hexDigits hdigit hc

theorem initialisers_chunkLine {chunk : List UInt8} (hne : chunk ≠ []) :
    initialisers (chunkLine chunk) = some chunk := by
  obtain ⟨b, bs, rfl⟩ := List.exists_cons_of_ne_nil hne
  let literal : UInt8 → List Char := fun byte => "0x".toList ++ Py.byteHex byte
  have hline : chunkLine (b :: bs) =
      (("  ".toList ++ literal b) :: (bs.map literal).map (' ' :: ·)).flatMap fun part =>
        part ++ [','] := intercalate_comma "  ".toList (literal b) (bs.map literal)
  have hcomma : ∀ byte, ',' ∉ literal byte := fun byte => notMem_literal (by decide) (by decide)
  have hparts : ∀ part ∈ ("  ".toList ++ literal b) :: (bs.map literal).map (' ' :: ·),
      ',' ∉ part := by
    refine List.forall_mem_cons.2 ⟨by simp [hcomma], fun part hpart => ?_⟩
    obtain ⟨_, hmem, rfl⟩ := List.mem_map.1 hpart
    obtain ⟨byte, -, rfl⟩ := List.mem_map.1 hmem
    simp [hcomma]
  have hmapM : ∀ bytes : List UInt8, (bytes.map literal).mapM byteLiteral? = some bytes := by
    intro bytes
    induction bytes with
    | nil => rfl
    | cons byte bytes ih =>
      rw [List.map_cons, List.mapM_cons, byteLiteral?_byteHex, ih]
      rfl
  have hmap : (((("  ".toList ++ literal b) :: (bs.map literal).map (' ' :: ·)) ++ [[]]).map
      fun part : List Char => part.dropWhile (· == ' ')) = (b :: bs).map literal ++ [[]] := by
    rw [List.map_append, List.map_cons, List.map_map, List.map_map, List.map_cons]
    rfl
  rw [initialisers, hline, splitOn_flatMap hparts, hmap, if_pos List.getLast?_concat, List.dropLast_concat, hmapM]

/-! ### Reading lines -/

variable {name : List Char} {reading : Reading} {arrays : List (List Char × List UInt8)}

theorem readLine_open (name : List Char) :
    readLine ⟨arrays, none⟩ ("STATIC CONST UINT8  ".toList ++ name ++ "[] = \x7b".toList) =
      some ⟨arrays, some (name, [])⟩ := by
  rw [readLine, arrayName?, List.append_assoc, Py.isPrefixOf?_append, Option.bind_some,
    List.reverse_append, Py.isPrefixOf?_append, Option.map_some, List.reverse_reverse]
  rfl

/-- A line that does not start as a declaration does. -/
theorem readLine_other {line : List Char} (h : line.head? ≠ some 'S') :
    readLine ⟨arrays, none⟩ line = some ⟨arrays, none⟩ := by
  have hprefix : "STATIC CONST UINT8  ".toList.isPrefixOf? line = none := by
    refine Py.isPrefixOf?_eq_none ?_
    rintro ⟨rest, rfl⟩
    exact h rfl
  rw [readLine, arrayName?, hprefix]
  rfl

theorem readLine_chunk {bytes chunk : List UInt8} (hne : chunk ≠ []) :
    readLine ⟨arrays, some (name, bytes)⟩ (chunkLine chunk) =
      some ⟨arrays, some (name, bytes ++ chunk)⟩ := by
  have hclose : chunkLine chunk ≠ "\x7d;".toList := by
    intro h
    have := congrArg List.head? h
    simp [chunkLine] at this
  rw [readLine]
  simp only
  rw [if_neg hclose, initialisers_chunkLine hne]
  rfl

theorem foldlM_chunks {bytes : List UInt8} {chunks : List (List UInt8)}
    (hne : ∀ chunk ∈ chunks, chunk ≠ []) :
    (chunks.map chunkLine).foldlM readLine ⟨arrays, some (name, bytes)⟩ =
      some ⟨arrays, some (name, bytes ++ chunks.flatten)⟩ := by
  induction chunks generalizing bytes with
  | nil => simp
  | cons chunk chunks ih =>
    rw [List.forall_mem_cons] at hne
    rw [List.map_cons, List.foldlM_cons, readLine_chunk hne.1]
    show (chunks.map chunkLine).foldlM readLine _ = _
    rw [ih hne.2, List.flatten_cons, List.append_assoc]

/-- The lines of an array, from its declaration to the empty line after its size. -/
theorem foldlM_arrayLines {name : String} {blob : List UInt8} {lines : List (List Char)}
    (h : arrayLines name blob = .ok lines) :
    lines.foldlM readLine ⟨arrays, none⟩ = some ⟨arrays ++ [(name.toList, blob)], none⟩ := by
  obtain ⟨-, hlines⟩ := Py.ite_error_eq_ok.1 h
  cases hlines
  have hclose : ∀ bytes : List UInt8, readLine ⟨arrays, some (name.toList, bytes)⟩ "\x7d;".toList =
      some ⟨arrays ++ [(name.toList, bytes)], none⟩ := fun bytes => rfl
  rw [List.cons_append, List.foldlM_cons, readLine_open]
  show (_ ++ _ : List (List Char)).foldlM readLine _ = _
  rw [List.foldlM_append, foldlM_chunks fun chunk => Py.ne_nil_of_mem_chunks (by decide),
    Py.flatten_chunks (by decide), List.nil_append]
  show List.foldlM readLine _ _ = _
  rw [List.foldlM_cons, hclose]
  show List.foldlM readLine _ _ = _
  rw [List.foldlM_cons, readLine_other (by simp)]
  show List.foldlM readLine _ _ = _
  rw [List.foldlM_cons, readLine_other (by simp)]
  rfl

theorem foldlM_arrays {blobs : List (String × List UInt8)} {lines : List (List (List Char))}
    (h : Py.traverse (fun entry => arrayLines entry.1 entry.2) blobs = .ok lines) :
    lines.flatten.foldlM readLine ⟨arrays, none⟩ =
      some ⟨arrays ++ blobs.map fun entry => (entry.1.toList, entry.2), none⟩ := by
  have hall := Py.traverse_eq_ok.1 h
  clear h
  induction hall generalizing arrays with
  | nil => simp
  | cons hentry _ ih =>
    rw [List.flatten_cons, List.foldlM_append, foldlM_arrayLines hentry]
    show List.foldlM readLine _ _ = _
    rw [ih, List.map_cons, List.append_assoc]
    rfl

/-- The characters of the lines of an array. -/
theorem newline_notMem {blobs : List (String × List UInt8)} {lines : List (List (List Char))}
    (hname : ∀ entry ∈ blobs, '\n' ∉ entry.1.toList)
    (h : Py.traverse (fun entry => arrayLines entry.1 entry.2) blobs = .ok lines) :
    ∀ line ∈ lines.flatten, '\n' ∉ line := by
  intro line hline
  obtain ⟨array, harray, hline⟩ := List.mem_flatten.1 hline
  obtain ⟨⟨name, blob⟩, hentry, heq⟩ := (Py.mem_traverse h).1 harray
  obtain ⟨-, hlines⟩ := Py.ite_error_eq_ok.1 heq
  cases hlines
  have hnewline : '\n' ∉ name.toList := hname _ hentry
  simp only [List.cons_append, List.mem_cons, List.mem_append, List.mem_map, List.not_mem_nil,
    or_false] at hline
  rcases hline with rfl | ⟨chunk, -, rfl⟩ | rfl | rfl | rfl
  · simp [hnewline]
  · intro hc
    rcases List.mem_append.1 hc with hc | hc
    · rcases List.mem_append.1 hc with hc | hc
      · simp at hc
      · rcases Py.mem_intercalate hc with hc | ⟨part, hpart, hc⟩
        · simp at hc
        · obtain ⟨byte, -, rfl⟩ := List.mem_map.1 hpart
          exact notMem_literal (by decide) (by decide) hc
    · simp at hc
  · decide
  · simp [hnewline]
  · simp

/-- **The header declares the arrays it was made for, byte for byte.** -/
theorem readArrays_toCHeader {blobs : List (String × List UInt8)} {text : String}
    (hname : ∀ entry ∈ blobs, '\n' ∉ entry.1.toList) (h : toCHeader blobs = .ok text) :
    readArrays text = some (blobs.map fun entry => (entry.1.toList, entry.2)) := by
  obtain ⟨lines, hlines, rfl⟩ := Py.map_eq_ok.1 h
  have hstart : headerLines.foldlM readLine ⟨[], none⟩ = some ⟨[], none⟩ := by decide
  have hfirst : ∀ line ∈ headerLines, '\n' ∉ line := by decide
  have hlast : ∀ line ∈ ["#endif".toList, []], '\n' ∉ line := by decide
  have hnewline : ∀ line ∈ headerLines ++ lines.flatten ++ ["#endif".toList, []],
      '\n' ∉ line := by
    intro line hline
    rcases List.mem_append.1 hline with hline | hline
    · rcases List.mem_append.1 hline with hline | hline
      · exact hfirst line hline
      · exact newline_notMem hname hlines line hline
    · exact hlast line hline
  rw [readArrays, String.toList_ofList, List.splitOn_intercalate '\n' hnewline (by simp),
    List.foldlM_append, List.foldlM_append, hstart]
  show Option.map _ ((List.foldlM readLine _ _).bind _) = _
  rw [foldlM_arrays hlines]
  rfl

/-- A header is written whenever no array is empty. -/
theorem toCHeader_isOk {blobs : List (String × List UInt8)} (h : ∀ entry ∈ blobs, entry.2 ≠ []) :
    ∃ text, toCHeader blobs = .ok text := by
  obtain ⟨lines, hlines⟩ : ∃ lines,
      Py.traverse (fun entry => arrayLines entry.1 entry.2) blobs = .ok lines :=
    Py.traverse_isOk.2 fun entry hentry => ⟨_, if_neg (h entry hentry)⟩
  exact ⟨_, by rw [toCHeader, hlines]; rfl⟩

/-- **What is built is decoded again, and the header carries it.**  For certificates of one length
and an owner in any spelling that is accepted, the text of the GUID among them: the decoded list has
the type, the owner and the certificates in order, and its sizes agree with the number of bytes.
What does not fit the size field is refused. -/
theorem decode_buildSignatureList {owner : Guid} {spelling : String}
    {certificates : List (List UInt8)} {n : ℕ} (hspelling : guidBytes spelling = .ok owner.bytes)
    (hne : certificates ≠ []) (hequal : ∀ cert ∈ certificates, cert.length = n) :
    guidBytes owner.text = .ok owner.bytes ∧
    (28 + certificates.length * (16 + n) < 2 ^ 32 →
      ∃ bytes, buildSignatureListFor spelling certificates = .ok bytes ∧
        decode bytes = some
          { signatureType := x509
            listSize := bytes.length
            headerSize := 0
            signatureSize := 16 + n
            header := []
            signatures := certificates.map fun cert => (owner, cert) } ∧
        bytes.length = 28 + certificates.length * (16 + n) ∧ bytes.length < 2 ^ 32 ∧
        16 + n < 2 ^ 32 ∧
        ∀ names : List String, (∀ name ∈ names, '\n' ∉ name.toList) →
          ∃ text, toCHeader (names.map fun name => (name, bytes)) = .ok text ∧
            readArrays text = some (names.map fun name => (name.toList, bytes))) ∧
    (2 ^ 32 ≤ 28 + certificates.length * (16 + n) →
      buildSignatureListFor spelling certificates =
        .error ⟨.structError, "argument out of range"⟩) := by
  have hbuild := buildSignatureListFor_eq hspelling hne hequal
  have hlength : (listBytes owner n certificates).length = 28 + certificates.length * (16 + n) :=
    length_listBytes hequal
  refine ⟨guidBytes_text owner, fun hfits => ?_, fun hlarge => ?_⟩
  · have hone : 16 + n ≤ certificates.length * (16 + n) :=
      Nat.le_mul_of_pos_left _ (List.length_pos_of_ne_nil hne)
    refine ⟨_, hbuild.trans (if_pos hfits), decode_listBytes hequal hne hfits, hlength,
      hlength.trans_lt hfits, by omega, fun names hnames => ?_⟩
    have hnonempty : listBytes owner n certificates ≠ [] := by
      rw [← List.length_pos_iff, hlength]
      omega
    obtain ⟨text, htext⟩ := @toCHeader_isOk
      (names.map fun name => (name, listBytes owner n certificates)) (by simp [hnonempty])
    refine ⟨text, htext, ?_⟩
    rw [readArrays_toCHeader (by simpa using hnames) htext, List.map_map]
    rfl
  · exact hbuild.trans (if_neg (not_lt.2 hlarge))

theorem decode_buildSignatureList_pair :
    ∃ bytes, buildSignatureList [[0x30, 0x82], [0x30, 0x83]] = .ok bytes ∧
      (decode bytes).map SignatureList.signatures =
        some [(k8labsOwner, [0x30, 0x82]), (k8labsOwner, [0x30, 0x83])] := by
  have hspelling : guidBytes k8labsOwnerGuid = .ok k8labsOwner.bytes := by
    rw [← text_k8labsOwner, guidBytes_text]
  have hequal : ∀ cert ∈ [[0x30, 0x82], [0x30, (0x83 : UInt8)]], cert.length = 2 := by decide
  obtain ⟨-, hbuilt, -⟩ := decode_buildSignatureList hspelling (by decide) hequal
  obtain ⟨bytes, hbytes, hdecode, -⟩ := hbuilt (by decide)
  exact ⟨bytes, hbytes, by rw [hdecode]; rfl⟩

end Firmware
