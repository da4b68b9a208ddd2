import K8Labs.Firmware.Pem
import K8Labs.Python.Shutil

/-!
# From a certificate file to the variables of the firmware

`main` of `scripts/edk2_esl.py` writes a certificate as a signature list and as a C header;
`K8LabsEnrollKeys.c`, compiled with that header, sets the variables of the firmware at the end of DXE.
What EDK2 does is a parameter, `Machine`.

* `payload?` reads what is set by the layout of `EFI_VARIABLE_AUTHENTICATION_2`.
* `certificate_enrolled` : **whatever the firmware answers, custom mode is entered first and left last,
  between them db, KEK and PK are set at most once and in this order, and what each is set to carries
  the certificate of the file.**
-/

namespace Firmware

open Py (Exc Path Eff Env World valueError)

/-! ### The command -/

section Command

variable (env : Env)

/-- The names of the arrays. -/
def keyNames : List String := ["K8LABS_PK_ESL", "K8LABS_KEK_ESL", "K8LABS_DB_ESL"]

/-- The arrays of the header. -/
def keyArrays (esl : List UInt8) : List (String × List UInt8) := keyNames.map fun name => (name, esl)

/-- `main`. -/
def main (certificate output : Path) (headerOut : Option Path) : Eff Unit := do
  let raw ← Py.inspect env fun fs => fs.read certificate
  let der ← Eff.lift (derCertificate certificate raw.data.toList)
  let esl ← Eff.lift (buildSignatureList [der])
  Py.writeFile env output ⟨esl.toArray⟩
  match headerOut with
  | none => pure ()
  | some path => do
    let header ← Eff.lift (toCHeader (keyArrays esl))
    Py.writeFile env path header.toByteArray

end Command

/-! ### The driver -/

/-- The variables that the driver sets or reads. -/
inductive Variable where
  | customMode
  | imageSecurityDatabase
  | keyExchangeKey
  | platformKey
  | secureBootMode
  | setupMode
  deriving DecidableEq

/-- The attributes of a variable. -/
inductive Attribute where
  | nonVolatile
  | bootserviceAccess
  | runtimeAccess
  | timeBasedAuthenticatedWriteAccess
  deriving DecidableEq

/-- `EFI_STATUS`. -/
abbrev Status := UInt64

/-- `EFI_OUT_OF_RESOURCES`. -/
def outOfResources : Status := 0x8000000000000009

/-- `EFI_ERROR`. -/
def efiError (status : Status) : Bool := 0x8000000000000000 ≤ status

/-- The arguments of `SetVariable`. -/
structure SetVariable where
  name : Variable
  attributes : List Attribute
  data : List UInt8
  deriving DecidableEq

/-- What the driver takes from EDK2, over the states of a firmware. -/
structure Machine (σ : Type) where
  /-- `EFI_CERT_TYPE_RSA2048_SHA256_GUID`. -/
  certType : Guid
  /-- `WIN_CERT_TYPE_EFI_GUID`. -/
  certificateType : UInt16
  allocateZeroPool : σ → Bool × σ
  setVariable : σ → SetVariable → Status × σ
  /-- `GetVariable` of one byte. -/
  getVariable : σ → Variable → (Status × UInt8) × σ

/-- What the driver writes to the serial port. -/
inductive Line where
  | status (label : String) (value : Status)
  | secureBootValue (value : UInt8)
  deriving DecidableEq

/-- A firmware, the calls of `SetVariable` so far, and the serial port. -/
structure Boot (σ : Type) where
  state : σ
  calls : List SetVariable
  serial : List Line

section Driver

variable {σ : Type} (m : Machine σ)

/-- `Say`. -/
def say (label : String) (r : Status × Boot σ) : Boot σ :=
  { r.2 with serial := r.2.serial ++ [.status label r.1] }

/-- A call of `SetVariable`. -/
def set (call : SetVariable) (b : Boot σ) : Status × Boot σ :=
  let r := m.setVariable b.state call
  (r.1, { b with state := r.2, calls := b.calls ++ [call] })

/-- The buffer of `Enroll`: the time stamp, the certificate header, and the signature list. -/
def authenticated (esl : List UInt8) : List UInt8 :=
  List.replicate 16 0 ++ Py.littleEndian 4 24 ++ Py.littleEndian 2 0x0200 ++
    Py.littleEndian 2 m.certificateType.toNat ++ m.certType.bytes ++ esl

/-- The call of `Enroll`. -/
def enrollment (name : Variable) (esl : List UInt8) : SetVariable where
  name := name
  attributes := [.nonVolatile, .bootserviceAccess, .runtimeAccess, .timeBasedAuthenticatedWriteAccess]
  data := authenticated m esl

/-- `Enroll`. -/
def enroll (name : Variable) (esl : List UInt8) (b : Boot σ) : Status × Boot σ :=
  let r := m.allocateZeroPool b.state
  if r.1 then set m (enrollment m name esl) { b with state := r.2 }
  else (outOfResources, { b with state := r.2 })

/-- The call of `EnterCustomMode`. -/
def customMode (enter : Bool) : SetVariable where
  name := .customMode
  attributes := [.nonVolatile, .bootserviceAccess]
  data := [if enter then 1 else 0]

/-- `EnterCustomMode`. -/
def enterCustomMode (enter : Bool) (b : Boot σ) : Status × Boot σ := set m (customMode enter) b

/-- `ReportSecureBootState`. -/
def reportSecureBootState (b : Boot σ) : Boot σ :=
  let r := m.getVariable b.state .secureBootMode
  let b := say "SecureBoot" (r.1.1, { b with state := r.2 })
  let b := if efiError r.1.1 then b else { b with serial := b.serial ++ [.secureBootValue r.1.2] }
  let r := m.getVariable b.state .setupMode
  say "SetupMode" (r.1.1, { b with state := r.2 })

/-- `K8LabsOnEndOfDxe`, with the arrays of the header. -/
def onEndOfDxe (db kek pk : List UInt8) (b : Boot σ) : Boot σ :=
  let b := say "end-of-dxe" (0, b)
  let b := say "custom mode on" (enterCustomMode m true b)
  -- writing PK leaves setup mode, so it is the last of the three
  let b := say "db" (enroll m .imageSecurityDatabase db b)
  let b := say "KEK" (enroll m .keyExchangeKey kek b)
  let b := say "PK" (enroll m .platformKey pk b)
  let b := say "custom mode off" (enterCustomMode m false b)
  reportSecureBootState m b

/-- The driver, compiled with a header. -/
def driver (header : String) : Option (Boot σ → Boot σ) :=
  (readArrays header).bind fun arrays =>
  (arrays.lookup "K8LABS_DB_ESL".toList).bind fun db =>
  (arrays.lookup "K8LABS_KEK_ESL".toList).bind fun kek =>
  (arrays.lookup "K8LABS_PK_ESL".toList).map fun pk => onEndOfDxe m db kek pk

/-! ### What is set -/

/-- What follows the headers of an `EFI_VARIABLE_AUTHENTICATION_2`: the time stamp is sixteen bytes,
and `dwLength` says how long the certificate after it is. -/
def payload? (data : List UInt8) : Option (List UInt8) :=
  let length := Py.fromLittleEndian ((data.drop 16).take 4)
  if 24 ≤ length ∧ 16 + length ≤ data.length then some (data.drop (16 + length)) else none

theorem payload?_authenticated (esl : List UInt8) : payload? (authenticated m esl) = some esl := by
  have hcut : authenticated m esl = (List.replicate 16 0 ++ (Py.littleEndian 4 24 ++
      (Py.littleEndian 2 0x0200 ++ Py.littleEndian 2 m.certificateType.toNat ++ m.certType.bytes))) ++
        esl := by
    simp [authenticated]
  have hlength : Py.fromLittleEndian (((authenticated m esl).drop 16).take 4) = 24 := by
    have hdrop : (authenticated m esl).drop 16 = Py.littleEndian 4 24 ++
        (Py.littleEndian 2 0x0200 ++ Py.littleEndian 2 m.certificateType.toNat ++ m.certType.bytes ++
          esl) := by
      rw [hcut, List.append_assoc, List.drop_left' (by simp)]
      simp
    rw [hdrop, List.take_left' (Py.length_littleEndian 4 24),
      Py.fromLittleEndian_littleEndian (by decide)]
  have hsize : (authenticated m esl).length = 40 + esl.length := by
    rw [hcut]
    simp only [List.length_append, List.length_replicate, Py.length_littleEndian, Guid.length_bytes]
  rw [payload?, hlength, if_pos ⟨le_refl 24, by omega⟩, hcut, List.drop_left' (by simp)]

/-- An enrollment is called for unless there is no memory. -/
theorem calls_enroll (name : Variable) (esl : List UInt8) (b : Boot σ) :
    ∃ more, (enroll m name esl b).2.calls = b.calls ++ more ∧
      (more = [enrollment m name esl] ∨ more = [] ∧ (m.allocateZeroPool b.state).1 = false) := by
  unfold enroll
  dsimp only
  split_ifs with hmemory
  · exact ⟨_, rfl, .inl rfl⟩
  · exact ⟨[], (List.append_nil _).symm, .inr ⟨rfl, by simpa using hmemory⟩⟩

theorem calls_reportSecureBootState (b : Boot σ) : (reportSecureBootState m b).calls = b.calls := by
  unfold reportSecureBootState say
  dsimp only
  split_ifs <;> rfl

/-- **The calls of the driver**, whatever they are answered. -/
theorem calls_onEndOfDxe (db kek pk : List UInt8) (b : Boot σ) :
    ∃ written, (onEndOfDxe m db kek pk b).calls =
        b.calls ++ customMode true :: (written ++ [customMode false]) ∧
      written.Sublist [enrollment m .imageSecurityDatabase db, enrollment m .keyExchangeKey kek,
        enrollment m .platformKey pk] ∧
      ((∀ s, (m.allocateZeroPool s).1 = true) → written = [enrollment m .imageSecurityDatabase db,
        enrollment m .keyExchangeKey kek, enrollment m .platformKey pk]) := by
  unfold onEndOfDxe
  extract_lets b₀ b₁ b₂ b₃ b₄ b₅
  obtain ⟨first, hfirst, hdb⟩ := calls_enroll m .imageSecurityDatabase db b₁
  obtain ⟨second, hsecond, hkek⟩ := calls_enroll m .keyExchangeKey kek b₂
  obtain ⟨third, hthird, hpk⟩ := calls_enroll m .platformKey pk b₃
  have hone : ∀ {more : List SetVariable} {call s}, (more = [call] ∨ more = [] ∧ (m.allocateZeroPool s).1 = false) →
      more.Sublist [call] ∧ ((∀ s, (m.allocateZeroPool s).1 = true) → more = [call]) := by
    rintro more call s (rfl | ⟨rfl, hmemory⟩)
    · exact ⟨List.Sublist.refl _, fun _ => rfl⟩
    · exact ⟨List.nil_sublist _, fun h => absurd (h s) (by rw [hmemory]; decide)⟩
  refine ⟨first ++ second ++ third, ?_, ?_, fun hmemory => ?_⟩
  · rw [calls_reportSecureBootState]
    change b₄.calls ++ [customMode false] = _
    rw [show b₄.calls = b₃.calls ++ third from hthird, show b₃.calls = b₂.calls ++ second from hsecond,
      show b₂.calls = b₁.calls ++ first from hfirst,
      show b₁.calls = b.calls ++ [customMode true] from rfl]
    simp
  · exact ((hone hdb).1.append (hone hkek).1).append (hone hpk).1
  · rw [(hone hdb).2 hmemory, (hone hkek).2 hmemory, (hone hpk).2 hmemory]
    rfl

end Driver

/-! ### From the file to the variables -/

/-- The file holds the certificate, in DER or in PEM. -/
def CertificateFile (der raw : List UInt8) : Prop :=
  (raw = der ∧ ¬ asciiBytes beginMarker <:+: der) ∨ ∃ pem : Pem der, raw = pem.file

theorem derCertificate_of_file {der raw : List UInt8} (h : CertificateFile der raw) (path : Path) :
    derCertificate path raw = .ok der := by
  rcases h with ⟨rfl, hmarker⟩ | ⟨pem, rfl⟩
  · exact if_pos hmarker
  · exact derCertificate_file pem path

/-- Where every key has one value, a key has it. -/
theorem lookup_map_const {α β : Type} [BEq α] [LawfulBEq α] {keys : List α} {key : α} (v : β)
    (h : key ∈ keys) : (keys.map fun k => (k, v)).lookup key = some v := by
  induction keys with
  | nil => simp at h
  | cons k keys ih =>
    rw [List.map_cons, List.lookup_cons]
    split
    · rfl
    · rename_i hne
      refine ih ((List.mem_cons.1 h).resolve_left ?_)
      rintro rfl
      simp at hne

/-- One signature list with the certificate alone. -/
def listOf (der esl : List UInt8) : SignatureList where
  signatureType := x509
  listSize := esl.length
  headerSize := 0
  signatureSize := 16 + der.length
  header := []
  signatures := [(k8labsOwner, der)]

theorem buildSignatureList_eq_ok {der esl : List UInt8} (h : buildSignatureList [der] = .ok esl) :
    decode esl = some (listOf der esl) ∧ esl ≠ [] := by
  have hspelling : guidBytes k8labsOwnerGuid = .ok k8labsOwner.bytes := by
    rw [← text_k8labsOwner, guidBytes_text]
  have hequal : ∀ cert ∈ [der], cert.length = der.length := by simp
  have hlength : (listBytes k8labsOwner der.length [der]).length = 28 + 1 * (16 + der.length) :=
    length_listBytes hequal
  rw [buildSignatureList, buildSignatureListFor_eq hspelling (by simp) hequal] at h
  split_ifs at h with hfits
  obtain rfl := Except.ok.inj h
  refine ⟨(decode_listBytes hequal (by simp) hfits).trans ?_, ?_⟩
  · rfl
  · rw [← List.length_pos_iff, hlength]
    omega

section Main

variable {env : Env} {w w' : World} {certificate output header : Path} {der : List UInt8}
  {raw : ByteArray}

/-- What the command has written. -/
theorem main_eq_ok (hraw : w.fs.fileAt certificate = some raw)
    (hcertificate : CertificateFile der raw.data.toList) (hpaths : output ≠ header)
    (h : main env certificate output (some header) w = (.ok (), w')) :
    ∃ esl text, w'.fs.fileAt output = some ⟨esl.toArray⟩ ∧ decode esl = some (listOf der esl) ∧
      w'.fs.fileAt header = some text.toByteArray ∧
      readArrays text = some (keyNames.map fun name => (name.toList, esl)) := by
  obtain ⟨raw', w₁, hread, h⟩ := Eff.bind_eq_ok h
  obtain ⟨hread, -⟩ := Py.inspect_eq_ok hread
  obtain rfl := Option.some.inj ((Py.FileSystem.read_eq_ok.1 hread).symm.trans hraw)
  rw [Eff.bind_lift_of_ok (derCertificate_of_file hcertificate certificate)] at h
  obtain ⟨esl, hesl, h⟩ := Eff.bind_lift_eq_ok h
  obtain ⟨⟨⟩, w₂, houtput, h⟩ := Eff.bind_eq_ok h
  obtain ⟨text, htext, h⟩ := Eff.bind_lift_eq_ok h
  obtain ⟨hdecode, -⟩ := buildSignatureList_eq_ok hesl
  have hkept : w'.fs.fileAt output = w₂.fs.fileAt output :=
    Py.FileSystem.fileAt_congr ((Py.confined_writeFile _ _).same h output hpaths)
  refine ⟨esl, text, hkept.trans (Py.fileAt_of_writeFile houtput), hdecode, Py.fileAt_of_writeFile h,
    (readArrays_toCHeader ?_ htext).trans (by rw [keyArrays, List.map_map]; rfl)⟩
  have hnames : ∀ name ∈ keyNames, '\n' ∉ name.toList := by decide
  simpa [keyArrays] using hnames

/-- **The certificate of the file is what the driver enrolls.** -/
theorem certificate_enrolled (hraw : w.fs.fileAt certificate = some raw)
    (hcertificate : CertificateFile der raw.data.toList) (hpaths : output ≠ header)
    (h : main env certificate output (some header) w = (.ok (), w')) :
    ∃ esl text, w'.fs.fileAt output = some ⟨esl.toArray⟩ ∧ decode esl = some (listOf der esl) ∧
      w'.fs.fileAt header = some text.toByteArray ∧
      ∀ (σ : Type) (m : Machine σ), ∃ run, driver m text = some run ∧ ∀ b : Boot σ, ∃ written,
        (run b).calls = b.calls ++ customMode true :: (written ++ [customMode false]) ∧
        (written.map SetVariable.name).Sublist [.imageSecurityDatabase, .keyExchangeKey, .platformKey] ∧
        (∀ call ∈ written, payload? call.data = some esl ∧
          Attribute.timeBasedAuthenticatedWriteAccess ∈ call.attributes) ∧
        ((∀ s, (m.allocateZeroPool s).1 = true) →
          written.map SetVariable.name = [.imageSecurityDatabase, .keyExchangeKey, .platformKey]) := by
  obtain ⟨esl, text, houtput, hdecode, hheader, harrays⟩ := main_eq_ok hraw hcertificate hpaths h
  refine ⟨esl, text, houtput, hdecode, hheader, fun σ m => ⟨onEndOfDxe m esl esl esl, ?_, fun b => ?_⟩⟩
  · have hlookup : ∀ name ∈ keyNames,
        (keyNames.map fun name => (name.toList, esl)).lookup name.toList = some esl := by
      intro name hname
      have hmap := lookup_map_const esl (List.mem_map_of_mem (f := String.toList) hname)
      rwa [List.map_map] at hmap
    rw [driver, harrays, Option.bind_some, hlookup _ (by decide), Option.bind_some,
      hlookup _ (by decide), Option.bind_some, hlookup _ (by decide), Option.map_some]
  · obtain ⟨written, hcalls, hsub, hall⟩ := calls_onEndOfDxe m esl esl esl b
    refine ⟨written, hcalls, hsub.map SetVariable.name, fun call hcall => ?_, fun hmemory => ?_⟩
    · obtain ⟨name, rfl⟩ : ∃ name, call = enrollment m name esl := by
        have hmem := hsub.subset hcall
        simp only [List.mem_cons, List.not_mem_nil, or_false] at hmem
        rcases hmem with rfl | rfl | rfl
        all_goals exact ⟨_, rfl⟩
      exact ⟨payload?_authenticated m esl, by simp [enrollment]⟩
    · rw [hall hmemory]
      rfl

end Main

/-- An environment in which every call is carried out. -/
def quietEnv : Env where
  interrupt _ := none
  token _ := ⟨"", by decide⟩
  fetch _ _ := []
  run _ _ := (.notFound, .empty)
  depth := 900

/-- A certificate of two bytes, in PEM. -/
def smallPem : Pem [0x30, 0x00] := .wrapped 2 (by decide) [0x30, 0x00] (by decide)

/-- A file system with the file. -/
def smallFiles : Py.FileSystem :=
  (Py.FileSystem.single .dir).place ["lab.pem"] (.single (.file ⟨smallPem.file.toArray⟩))

theorem certificate_enrolled_smallPem :
    ∃ (esl : List UInt8) (text : String),
      decode esl = some (listOf [0x30, 0x00] esl) ∧
      ∀ (σ : Type) (m : Machine σ), (driver m text).isSome = true := by
  have hreturns : Py.okAnd (main quietEnv ["lab.pem"] ["db.esl"] (some ["keys.h"]) ⟨smallFiles, 0⟩).1
      (fun _ => true) = true := by decide +kernel
  obtain ⟨⟨⟩, hok, -⟩ := Py.okAnd_eq_true.1 hreturns
  have hfile : smallFiles.fileAt ["lab.pem"] = some ⟨smallPem.file.toArray⟩ := rfl
  obtain ⟨esl, text, -, hdecode, -, hdriver⟩ := certificate_enrolled hfile (.inr ⟨smallPem, rfl⟩)
    (by decide) (Prod.ext hok rfl)
  refine ⟨esl, text, hdecode, fun σ m => ?_⟩
  obtain ⟨run, hrun, -⟩ := hdriver σ m
  rw [hrun]
  rfl

end Firmware
