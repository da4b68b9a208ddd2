import K8Labs.Python.Effect
import K8Labs.Python.Text

/-!
# The certificates of the host agent

`ensure_certificates` of `scripts/host_agent.py` with its helpers: three key/certificate pairs in
one directory, each made by `openssl` when it is missing, and a leaf made anew when the certificate
that is there does not name what is asked for.

A file holds what `openssl` wrote (`Content`): a key has a number of its own, a certificate records
its key, the key it is signed with and its names.  How `openssl` reads an extension file and prints
names is a parameter (`Openssl`); a command may be broken off, and then its output is as before,
damaged or complete (`Failure`).  Modes of files and the serial number file are not modelled.
-/

namespace HostAgent

open Py (Exc Effect isIn strip)

/-! ### Files -/

/-- The files of the `tls` directory. -/
inductive TlsFile where
  | caKey
  | caCert
  | serverKey
  | serverCert
  | serverCsr
  | serverExt
  | managerKey
  | managerCert
  | managerCsr
  | managerExt
  deriving DecidableEq

/-- A name of the subject. -/
inductive GeneralName where
  | dns (name : String)
  | ip (address : String)
  | uri (name : String)
  deriving DecidableEq

/-- A certificate: its key, the key it is signed with, and the names of its subject. -/
structure Certificate where
  key : ℕ
  issuer : ℕ
  names : List GeneralName
  deriving DecidableEq

/-- What a file holds. -/
inductive Content where
  | key (number : ℕ)
  | request (key : ℕ)
  | text (text : String)
  | certificate (certificate : Certificate)
  | damaged
  deriving DecidableEq

/-- The files that are there. -/
abbrev Disk := TlsFile → Option Content

/-- The disk, and the number of `openssl` commands so far. -/
structure World where
  disk : Disk
  commands : ℕ

/-- A directory without files. -/
def World.empty : World := ⟨fun _ => none, 0⟩

/-! ### The commands -/

/-- What `openssl` makes of an extension file, and how it prints the names of a certificate. -/
structure Openssl where
  readNames : String → List GeneralName
  printNames : List GeneralName → String

/-- What a command that is broken off leaves in its output file. -/
inductive Failure where
  | untouched
  | partly
  | complete

variable (openssl : Openssl) (fails : ℕ → Option Failure)

/-- `CalledProcessError`. -/
def commandFailed : Exc := ⟨.calledProcessError, "Command returned non-zero exit status 1."⟩

/-- The disk with another content of one file. -/
def Disk.put (disk : Disk) (file : TlsFile) (content : Option Content) : Disk := fun other =>
  if other = file then content else disk other

/-- `run` of a command with an output file; it refuses when its inputs are not what it needs. -/
def run (output : TlsFile) (result : World → Option Content) : Effect World Exc Unit := fun w =>
  let put := fun content => (⟨w.disk.put output (some content), w.commands + 1⟩ : World)
  let kept : World := ⟨w.disk, w.commands + 1⟩
  match fails w.commands, result w with
  | none, some content => (.ok (), put content)
  | some .complete, some content => (.error commandFailed, put content)
  | some .partly, _ => (.error commandFailed, put .damaged)
  | _, _ => (.error commandFailed, kept)

/-- `openssl genrsa`: a key that was not there before. -/
def genrsa (output : TlsFile) : Effect World Exc Unit :=
  run fails output fun w => some (.key w.commands)

/-- `openssl req -x509`: a certificate signed with its own key. -/
def selfSign (key output : TlsFile) : Effect World Exc Unit :=
  run fails output fun w =>
    match w.disk key with
    | some (.key number) => some (.certificate ⟨number, number, []⟩)
    | _ => none

/-- `openssl req -new`. -/
def requestFor (key output : TlsFile) : Effect World Exc Unit :=
  run fails output fun w =>
    match w.disk key with
    | some (.key number) => some (.request number)
    | _ => none

/-- The certificate that `openssl x509 -req` makes; the key of the authority must be the one of its
certificate. -/
def signed (request extension : TlsFile) (w : World) : Option Content :=
  match w.disk request, w.disk extension, w.disk .caCert, w.disk .caKey with
  | some (.request key), some (.text names), some (.certificate ca), some (.key number) =>
    if ca.key = number then some (.certificate ⟨key, ca.key, openssl.readNames names⟩) else none
  | _, _, _, _ => none

/-- `openssl x509 -req`. -/
def sign (request extension output : TlsFile) : Effect World Exc Unit :=
  run fails output (signed openssl request extension)

/-- `certificate_has_san`. -/
def certificateHasSan (file : TlsFile) (value : String) : Effect World Exc Bool := fun w =>
  match fails w.commands, w.disk file with
  | none, some (.certificate certificate) =>
    (.ok (isIn value (strip (openssl.printNames certificate.names))), ⟨w.disk, w.commands + 1⟩)
  | _, _ => (.error commandFailed, ⟨w.disk, w.commands + 1⟩)

/-! ### The script -/

/-- `MANAGER_IDENTITY`. -/
def managerIdentity : String := "spiffe://k8labs/provider/manager"

/-- `SERVER_NAME`. -/
def serverName : String := "hypervisor-agent"

/-- `path.unlink()`. -/
def unlink (file : TlsFile) : Effect World Exc Unit := do
  let w ← Effect.get
  if w.disk file = none then Effect.throw ⟨.fileNotFoundError, "No such file or directory"⟩
  else Effect.modify fun w => ⟨w.disk.put file none, w.commands⟩

/-- `path.write_text`. -/
def writeText (file : TlsFile) (text : String) : Effect World Exc Unit :=
  Effect.modify fun w => ⟨w.disk.put file (some (.text text)), w.commands⟩

/-- `private_path`; the mode itself is not modelled. -/
def privatePath (file : TlsFile) : Effect World Exc Unit := do
  let w ← Effect.get
  if w.disk file = none then Effect.throw ⟨.fileNotFoundError, "No such file or directory"⟩
  else pure ()

/-- `ensure_pair`. -/
def ensurePair (key certificate : TlsFile) (description : String) : Effect World Exc Bool := do
  let w ← Effect.get
  if (w.disk key).isSome ≠ (w.disk certificate).isSome then
    Effect.throw ⟨.systemExit, "ERROR: incomplete HostAgent " ++ description ++
      " certificate state; remove both files and reinstall"⟩
  else pure (w.disk key).isSome

/-- The two certificates that the authority signs. -/
inductive Leaf where
  | server
  | manager
  deriving DecidableEq

namespace Leaf

def key : Leaf → TlsFile
  | server => .serverKey
  | manager => .managerKey

def cert : Leaf → TlsFile
  | server => .serverCert
  | manager => .managerCert

def csr : Leaf → TlsFile
  | server => .serverCsr
  | manager => .managerCsr

def ext : Leaf → TlsFile
  | server => .serverExt
  | manager => .managerExt

/-- The files that belong to a leaf. -/
def files (leaf : Leaf) : List TlsFile := [leaf.key, leaf.cert, leaf.csr, leaf.ext]

end Leaf

/-- The body of `create_server_certificate` and `create_manager_certificate`. -/
def createCertificate (leaf : Leaf) (extension : String) : Effect World Exc Unit := do
  writeText leaf.ext extension
  genrsa fails leaf.key
  requestFor fails leaf.key leaf.csr
  sign openssl fails leaf.csr leaf.ext leaf.cert
  unlink leaf.csr
  unlink leaf.ext

/-- The extension file of the server. -/
def serverExtension (address : String) : String :=
  "subjectAltName=DNS:" ++ serverName ++ ",IP:" ++ address ++ "\nextendedKeyUsage=serverAuth\n"

/-- The extension file of the manager. -/
def managerExtension : String :=
  "subjectAltName=URI:" ++ managerIdentity ++ "\nextendedKeyUsage=clientAuth\n"

/-- `create_server_certificate`. -/
def createServerCertificate (address : String) : Effect World Exc Unit :=
  createCertificate openssl fails .server (serverExtension address)

/-- `create_manager_certificate`. -/
def createManagerCertificate : Effect World Exc Unit :=
  createCertificate openssl fails .manager managerExtension

/-- The commands that make the authority. -/
def createAuthority : Effect World Exc Unit := do
  genrsa fails .caKey
  selfSign fails .caKey .caCert

/-- The authority: it stays if it is there. -/
def ensureAuthority (present : Bool) : Effect World Exc Unit :=
  if present then pure () else createAuthority fails

/-- The leaf that is there stays there: its certificate has the name, or else it is removed. -/
def stays (leaf : Leaf) (present : Bool) (value : String) : Effect World Exc Bool :=
  if present then do
    let named ← certificateHasSan openssl fails leaf.cert value
    if named then pure true
    else do
      unlink leaf.key
      unlink leaf.cert
      pure false
  else pure false

/-- A leaf: kept if it stays, made otherwise. -/
def ensureLeaf (leaf : Leaf) (present : Bool) (value : String) (create : Effect World Exc Unit) :
    Effect World Exc Unit := do
  let kept ← stays openssl fails leaf present value
  if kept then pure () else create

/-- `ensure_certificates`, from the checks of the three pairs on. -/
def ensureCertificates (address : String) : Effect World Exc Unit := do
  let caExists ← ensurePair .caKey .caCert "CA"
  let serverExists ← ensurePair .serverKey .serverCert "server"
  let managerExists ← ensurePair .managerKey .managerCert "manager"
  ensureAuthority fails caExists
  ensureLeaf openssl fails .server serverExists ("IP Address:" ++ address)
    (createServerCertificate openssl fails address)
  ensureLeaf openssl fails .manager managerExists managerIdentity
    (createManagerCertificate openssl fails)
  privatePath .caKey
  privatePath .serverKey
  privatePath .managerKey

/-! ### What the steps do -/

variable {openssl fails} {w w' : World} {leaf : Leaf} {file output : TlsFile}

@[simp] theorem Disk.put_self (disk : Disk) (content : Option Content) :
    disk.put file content file = content := if_pos rfl

theorem Disk.put_of_ne {disk : Disk} {content : Option Content} {other : TlsFile}
    (h : other ≠ file) : disk.put file content other = disk other := if_neg h

/-- However a command ends: its result is written, or its output is damaged, or nothing changes. -/
theorem run_cases {result : World → Option Content} {r : Except Exc Unit}
    (h : run fails output result w = (r, w')) :
    (∃ content, result w = some content ∧
      w' = ⟨w.disk.put output (some content), w.commands + 1⟩) ∨
    r = .error commandFailed ∧ (w' = ⟨w.disk.put output (some .damaged), w.commands + 1⟩ ∨
      w' = ⟨w.disk, w.commands + 1⟩) := by
  unfold run at h
  split at h
  · rename_i content _ hresult
    cases h
    exact .inl ⟨content, hresult, rfl⟩
  · rename_i content _ hresult
    cases h
    exact .inl ⟨content, hresult, rfl⟩
  · cases h
    exact .inr ⟨rfl, .inl rfl⟩
  · cases h
    exact .inr ⟨rfl, .inr rfl⟩

/-- A command that succeeded has written its result. -/
theorem run_eq_ok {result : World → Option Content} (h : run fails output result w = (.ok (), w')) :
    ∃ content, result w = some content ∧
      w' = ⟨w.disk.put output (some content), w.commands + 1⟩ := by
  rcases run_cases h with hdone | ⟨hr, -⟩
  · exact hdone
  · cases hr

theorem ends_run {pre : World → Prop} {result : World → Option Content} {post : World → Prop}
    {raised : World → Prop}
    (hdone : ∀ w content, pre w → result w = some content →
      post ⟨w.disk.put output (some content), w.commands + 1⟩)
    (hraised : ∀ w, post w → raised w)
    (hpartly : ∀ w, pre w → raised ⟨w.disk.put output (some .damaged), w.commands + 1⟩)
    (huntouched : ∀ w, pre w → raised ⟨w.disk, w.commands + 1⟩) :
    Effect.Ends pre (run fails output result) (fun _ => post) raised := by
  refine .of_all fun w r w' hw h => ?_
  cases r with
  | ok _ =>
    obtain ⟨content, hresult, rfl⟩ := run_eq_ok h
    exact hdone w content hw hresult
  | error e =>
    rcases run_cases h with ⟨content, hresult, rfl⟩ | ⟨-, rfl | rfl⟩
    · exact hraised _ (hdone w content hw hresult)
    · exact hpartly w hw
    · exact huntouched w hw

theorem certificateHasSan_eq_ok {value : String} {named : Bool}
    (h : certificateHasSan openssl fails file value w = (.ok named, w')) :
    ∃ certificate, w.disk file = some (.certificate certificate) ∧
      named = isIn value (strip (openssl.printNames certificate.names)) ∧
      w' = ⟨w.disk, w.commands + 1⟩ := by
  unfold certificateHasSan at h
  split at h
  · rename_i certificate _ hfile
    -- `cases` would try to evaluate the search
    rw [Prod.mk.injEq, Except.ok.injEq] at h
    exact ⟨certificate, hfile, h.1.symm, h.2.symm⟩
  · cases h

theorem unlink_eq_ok (h : unlink file w = (.ok (), w')) : w' = ⟨w.disk.put file none, w.commands⟩ := by
  obtain ⟨_, _, hget, hrest⟩ := Effect.bind_eq_ok.1 h
  obtain ⟨rfl, rfl⟩ := Effect.get_eq_ok.1 hget
  split_ifs at hrest
  · cases hrest
  · exact (Effect.modify_eq_ok.1 hrest).symm

theorem privatePath_eq_ok (h : privatePath file w = (.ok (), w')) : w = w' := by
  obtain ⟨_, _, hget, hrest⟩ := Effect.bind_eq_ok.1 h
  obtain ⟨rfl, rfl⟩ := Effect.get_eq_ok.1 hget
  split_ifs at hrest
  · cases hrest
  · exact (Effect.pure_eq_ok.1 hrest).2

theorem ensurePair_eq_ok {certificate : TlsFile} {description : String} {present : Bool}
    (h : ensurePair file certificate description w = (.ok present, w')) :
    w = w' ∧ (w.disk file).isSome = present ∧ (w.disk certificate).isSome = present := by
  obtain ⟨_, _, hget, hrest⟩ := Effect.bind_eq_ok.1 h
  obtain ⟨rfl, rfl⟩ := Effect.get_eq_ok.1 hget
  split_ifs at hrest with heq
  · cases hrest
  · obtain ⟨rfl, rfl⟩ := Effect.pure_eq_ok.1 hrest
    exact ⟨rfl, rfl, (not_not.1 heq).symm⟩

theorem signed_eq_some {request extension : TlsFile} {content : Content}
    (h : signed openssl request extension w = some content) :
    ∃ key names ca, w.disk request = some (.request key) ∧ w.disk extension = some (.text names) ∧
      w.disk .caCert = some (.certificate ca) ∧
      content = .certificate ⟨key, ca.key, openssl.readNames names⟩ := by
  unfold signed at h
  split at h
  · rename_i key names ca number hrequest hextension hca _
    split_ifs at h
    cases h
    exact ⟨key, names, ca, hrequest, hextension, hca, rfl⟩
  · cases h

/-- A leaf that was made: the authority signed it, and nothing but its own files has changed. -/
theorem createCertificate_eq_ok {extension : String}
    (h : createCertificate openssl fails leaf extension w = (.ok (), w')) :
    (∃ key ca, w.disk .caCert = some (.certificate ca) ∧
      w'.disk leaf.cert = some (.certificate ⟨key, ca.key, openssl.readNames extension⟩)) ∧
    ∀ file ∉ leaf.files, w'.disk file = w.disk file := by
  obtain ⟨⟨⟩, w₁, hext, h⟩ := Effect.bind_eq_ok.1 h
  obtain ⟨⟨⟩, w₂, hkey, h⟩ := Effect.bind_eq_ok.1 h
  obtain ⟨⟨⟩, w₃, hcsr, h⟩ := Effect.bind_eq_ok.1 h
  obtain ⟨⟨⟩, w₄, hcert, h⟩ := Effect.bind_eq_ok.1 h
  obtain ⟨⟨⟩, w₅, hunlink, h⟩ := Effect.bind_eq_ok.1 h
  obtain rfl := Effect.modify_eq_ok.1 hext
  obtain ⟨_, -, rfl⟩ := run_eq_ok hkey
  obtain ⟨_, -, rfl⟩ := run_eq_ok hcsr
  obtain ⟨_, hsigned, rfl⟩ := run_eq_ok hcert
  obtain rfl := unlink_eq_ok hunlink
  obtain rfl := unlink_eq_ok h
  obtain ⟨key, names, ca, -, hnames, hca, rfl⟩ := signed_eq_some hsigned
  have htext : names = extension := by
    cases leaf <;> simpa [Disk.put, Leaf.ext, Leaf.key, Leaf.csr, eq_comm] using hnames
  have hauthority : w.disk .caCert = some (.certificate ca) := by
    cases leaf <;> simpa [Disk.put, Leaf.ext, Leaf.key, Leaf.csr] using hca
  refine ⟨⟨key, ca, hauthority, ?_⟩, fun file hfile => ?_⟩
  · rw [htext]
    cases leaf <;> rfl
  · simp only [Leaf.files, List.mem_cons, List.not_mem_nil, or_false, not_or] at hfile
    obtain ⟨h₁, h₂, h₃, h₄⟩ := hfile
    simp only [Disk.put_of_ne h₁, Disk.put_of_ne h₂, Disk.put_of_ne h₃, Disk.put_of_ne h₄]

variable (openssl) in
/-- The pair of a leaf is there, and the certificate names what is asked for: the leaf is kept. -/
def Kept (w : World) (leaf : Leaf) (value : String) : Prop :=
  (w.disk leaf.key).isSome ∧ ∃ certificate, w.disk leaf.cert = some (.certificate certificate) ∧
    isIn value (strip (openssl.printNames certificate.names)) = true

/-- A leaf after a call that returned: kept as it was, or signed by the authority that is there. -/
theorem ensureLeaf_eq_ok {present : Bool} {value extension : String}
    (hpresent : (w.disk leaf.key).isSome = present)
    (h : ensureLeaf openssl fails leaf present value (createCertificate openssl fails leaf extension)
      w = (.ok (), w')) :
    (Kept openssl w leaf value ∧ w'.disk leaf.cert = w.disk leaf.cert ∨
      ¬ Kept openssl w leaf value ∧ ∃ key ca, w.disk .caCert = some (.certificate ca) ∧
        w'.disk leaf.cert = some (.certificate ⟨key, ca.key, openssl.readNames extension⟩)) ∧
    ∀ file ∉ leaf.files, w'.disk file = w.disk file := by
  obtain ⟨kept, w₁, hstays, h⟩ := Effect.bind_eq_ok.1 h
  cases present with
  | false =>
    obtain ⟨rfl, rfl⟩ := Effect.pure_eq_ok.1 hstays
    obtain ⟨hmade, hframe⟩ := createCertificate_eq_ok h
    refine ⟨.inr ⟨fun hkept => ?_, hmade⟩, hframe⟩
    have hthere := hkept.1
    rw [hpresent] at hthere
    cases hthere
  | true =>
    obtain ⟨named, w₂, hsan, hrest⟩ := Effect.bind_eq_ok.1 hstays
    obtain ⟨certificate, hfile, hnamed, rfl⟩ := certificateHasSan_eq_ok hsan
    -- a certificate without the value is removed with its key and made anew
    cases named with
    | true =>
      obtain ⟨rfl, rfl⟩ := Effect.pure_eq_ok.1 hrest
      obtain ⟨-, rfl⟩ := Effect.pure_eq_ok.1 h
      exact ⟨.inl ⟨⟨hpresent, certificate, hfile, hnamed.symm⟩, rfl⟩, fun _ _ => rfl⟩
    | false =>
      obtain ⟨⟨⟩, w₃, hkey, hrest⟩ := Effect.bind_eq_ok.1 hrest
      obtain ⟨⟨⟩, w₄, hcert, hrest⟩ := Effect.bind_eq_ok.1 hrest
      obtain rfl := unlink_eq_ok hkey
      obtain rfl := unlink_eq_ok hcert
      obtain ⟨rfl, rfl⟩ := Effect.pure_eq_ok.1 hrest
      obtain ⟨⟨key, ca, hca, hmade⟩, hframe⟩ := createCertificate_eq_ok h
      have hauthority : w.disk .caCert = some (.certificate ca) := by
        cases leaf <;> simpa [Disk.put, Leaf.key, Leaf.cert] using hca
      refine ⟨.inr ⟨?_, key, ca, hauthority, hmade⟩, fun file hfile => ?_⟩
      · rintro ⟨-, other, hother, hin⟩
        rw [hfile] at hother
        cases hother
        rw [← hnamed] at hin
        cases hin
      · rw [hframe file hfile]
        simp only [Leaf.files, List.mem_cons, List.not_mem_nil, or_false, not_or] at hfile
        simp only [Disk.put_of_ne hfile.1, Disk.put_of_ne hfile.2.1]

/-- The authority after a call that returned: the one that was there, or one with a new key. -/
theorem ensureAuthority_eq_ok {present : Bool}
    (h : ensureAuthority fails present w = (.ok (), w')) :
    (present = true ∧ w' = w) ∨ (present = false ∧
      w'.disk .caCert = some (.certificate ⟨w.commands, w.commands, []⟩) ∧
      ∀ file, file ≠ .caKey → file ≠ .caCert → w'.disk file = w.disk file) := by
  cases present with
  | true => exact .inl ⟨rfl, (Effect.pure_eq_ok.1 h).2.symm⟩
  | false =>
    obtain ⟨⟨⟩, w₁, hkey, hcert⟩ := Effect.bind_eq_ok.1 h
    obtain ⟨_, hmade, rfl⟩ := run_eq_ok hkey
    obtain ⟨_, hself, rfl⟩ := run_eq_ok hcert
    cases hmade
    simp only [Disk.put_self, Option.some.injEq] at hself
    subst hself
    refine .inr ⟨rfl, rfl, fun file hne₁ hne₂ => ?_⟩
    simp only [Disk.put_of_ne hne₂, Disk.put_of_ne hne₁]

/-- The name that a leaf must have. -/
def wanted (address : String) : Leaf → String
  | .server => "IP Address:" ++ address
  | .manager => managerIdentity

/-- The extension file that a leaf is made with. -/
def extensionOf (address : String) : Leaf → String
  | .server => serverExtension address
  | .manager => managerExtension

/-- **What a call that returned has done.**  The authority was there with both its files, or neither
was and it has a new key; each leaf is the one that was kept, or is signed by the authority. -/
theorem ensureCertificates_eq_ok {address : String}
    (h : ensureCertificates openssl fails address w = (.ok (), w')) :
    ((w.disk .caCert).isSome ∧ w'.disk .caCert = w.disk .caCert ∨
      w.disk .caCert = none ∧
        w'.disk .caCert = some (.certificate ⟨w.commands, w.commands, []⟩)) ∧
    ∀ leaf, Kept openssl w leaf (wanted address leaf) ∧ w'.disk leaf.cert = w.disk leaf.cert ∨
      ¬ Kept openssl w leaf (wanted address leaf) ∧ ∃ key ca,
        w'.disk .caCert = some (.certificate ca) ∧ w'.disk leaf.cert =
          some (.certificate ⟨key, ca.key, openssl.readNames (extensionOf address leaf)⟩) := by
  obtain ⟨caExists, _, hca, h₁⟩ := Effect.bind_eq_ok.1 h
  obtain ⟨serverExists, _, hserver, h₂⟩ := Effect.bind_eq_ok.1 h₁
  obtain ⟨managerExists, _, hmanager, h₃⟩ := Effect.bind_eq_ok.1 h₂
  obtain ⟨⟨⟩, w₁, hauthority, h₄⟩ := Effect.bind_eq_ok.1 h₃
  obtain ⟨⟨⟩, w₂, hfirst, h₅⟩ := Effect.bind_eq_ok.1 h₄
  obtain ⟨⟨⟩, w₃, hsecond, h₆⟩ := Effect.bind_eq_ok.1 h₅
  obtain ⟨⟨⟩, w₄, hp₁, h₇⟩ := Effect.bind_eq_ok.1 h₆
  obtain ⟨⟨⟩, w₅, hp₂, hp₃⟩ := Effect.bind_eq_ok.1 h₇
  obtain ⟨rfl, -, hcaThere⟩ := ensurePair_eq_ok hca
  obtain ⟨rfl, hserverThere, -⟩ := ensurePair_eq_ok hserver
  obtain ⟨rfl, hmanagerThere, -⟩ := ensurePair_eq_ok hmanager
  obtain rfl := privatePath_eq_ok hp₁
  obtain rfl := privatePath_eq_ok hp₂
  obtain rfl := privatePath_eq_ok hp₃
  clear h h₁ h₂ h₃ h₄ h₅ h₆ h₇ hca hserver hmanager hp₁ hp₂ hp₃
  -- the authority is made before the leaves, and touches none of their files
  have hapart : ∀ leaf : Leaf, ∀ file ∈ leaf.files, file ≠ .caKey ∧ file ≠ .caCert := by
    intro leaf
    cases leaf <;> decide
  have hleaves : ∀ leaf : Leaf, ∀ file ∈ leaf.files, w₁.disk file = w.disk file := by
    intro leaf file hfile
    rcases ensureAuthority_eq_ok hauthority with ⟨-, rfl⟩ | ⟨-, -, hsame⟩
    · rfl
    · exact hsame file (hapart leaf file hfile).1 (hapart leaf file hfile).2
  have hca₁ : (w.disk .caCert).isSome ∧ w₁.disk .caCert = w.disk .caCert ∨
      w.disk .caCert = none ∧
        w₁.disk .caCert = some (.certificate ⟨w.commands, w.commands, []⟩) := by
    rcases ensureAuthority_eq_ok hauthority with ⟨rfl, rfl⟩ | ⟨rfl, hnew, -⟩
    · exact .inl ⟨hcaThere, rfl⟩
    · exact .inr ⟨by simpa using hcaThere, hnew⟩
  have hkept : ∀ leaf value, Kept openssl w₁ leaf value ↔ Kept openssl w leaf value := by
    intro leaf value
    rw [Kept, Kept, hleaves leaf leaf.key (by simp [Leaf.files]),
      hleaves leaf leaf.cert (by simp [Leaf.files])]
  have hkey : (w₁.disk Leaf.server.key).isSome = serverExists := by
    rw [hleaves .server _ (by simp [Leaf.files])]
    exact hserverThere
  obtain ⟨hserver, hframe⟩ := ensureLeaf_eq_ok hkey hfirst
  -- the second leaf is checked and made with the first one in place
  have hmanagerFiles : ∀ file ∈ Leaf.manager.files, w₂.disk file = w.disk file := fun file hfile =>
    (hframe file (by revert file; decide)).trans (hleaves .manager file hfile)
  have hkey₂ : (w₂.disk Leaf.manager.key).isSome = managerExists := by
    rw [hmanagerFiles _ (by simp [Leaf.files])]
    exact hmanagerThere
  have hkept₂ : ∀ value, Kept openssl w₂ .manager value ↔ Kept openssl w .manager value := by
    intro value
    rw [Kept, Kept, hmanagerFiles Leaf.manager.key (by simp [Leaf.files]),
      hmanagerFiles Leaf.manager.cert (by simp [Leaf.files])]
  obtain ⟨hmanager, hframe₂⟩ := ensureLeaf_eq_ok hkey₂ hsecond
  have hca₂ : w₂.disk .caCert = w₁.disk .caCert := hframe _ (by decide)
  have hca₃ : w₃.disk .caCert = w₁.disk .caCert := (hframe₂ _ (by decide)).trans hca₂
  have hcert : w₃.disk Leaf.server.cert = w₂.disk Leaf.server.cert := hframe₂ _ (by decide)
  refine ⟨by rwa [hca₃], fun leaf => ?_⟩
  cases leaf with
  | server =>
    rw [hkept] at hserver
    rw [hcert, hca₃, ← hleaves .server Leaf.server.cert (by simp [Leaf.files])]
    exact hserver
  | manager =>
    rw [hkept₂, hca₂] at hmanager
    rw [hca₃, ← hmanagerFiles Leaf.manager.cert (by simp [Leaf.files])]
    exact hmanager

/-- A call that returned found each leaf complete or not there at all. -/
theorem pairs_of_ensureCertificates {address : String}
    (h : ensureCertificates openssl fails address w = (.ok (), w')) (leaf : Leaf) :
    (w.disk leaf.key).isSome = (w.disk leaf.cert).isSome := by
  obtain ⟨_, _, hca, h₁⟩ := Effect.bind_eq_ok.1 h
  obtain ⟨_, _, hserver, h₂⟩ := Effect.bind_eq_ok.1 h₁
  obtain ⟨_, _, hmanager, -⟩ := Effect.bind_eq_ok.1 h₂
  obtain ⟨rfl, -, -⟩ := ensurePair_eq_ok hca
  obtain ⟨rfl, hserverKey, hserverCert⟩ := ensurePair_eq_ok hserver
  obtain ⟨rfl, hmanagerKey, hmanagerCert⟩ := ensurePair_eq_ok hmanager
  cases leaf with
  | server => exact hserverKey.trans hserverCert.symm
  | manager => exact hmanagerKey.trans hmanagerCert.symm

end HostAgent
