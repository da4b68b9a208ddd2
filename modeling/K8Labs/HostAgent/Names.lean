import K8Labs.HostAgent.Certificates

/-!
# The address that the server certificate names

`certificate_has_san` looks for `IP Address:` and the address in the text that `openssl` prints, so
a certificate for `10.0.0.12` passes for one for `10.0.0.1`.  `Documented` says what `openssl` makes
of the extension file of the server and how it prints the names.

`names_exactly_iff` is the result: **after two calls the server certificate names exactly the second
address, if and only if the certificate that the second call finds does not merely print it.**  A
certificate that the first call made prints another address exactly when that address is a prefix
of the one it was made for.
-/

namespace HostAgent

open Py (Exc Effect isIn strip natDigits isSpace)

/-! ### Addresses -/

/-- An IPv4 address. -/
@[ext] structure IPv4 where
  first : UInt8
  second : UInt8
  third : UInt8
  fourth : UInt8
  deriving DecidableEq

namespace IPv4

/-- The text before the last number. -/
def start (a : IPv4) : List Char :=
  natDigits a.first.toNat ++ '.' :: (natDigits a.second.toNat ++
    '.' :: (natDigits a.third.toNat ++ ['.']))

/-- `str(address)`. -/
def text (a : IPv4) : String := String.ofList (a.start ++ natDigits a.fourth.toNat)

theorem mem_text {a : IPv4} {c : Char} (hc : c ∈ a.text.toList) :
    c = '.' ∨ c.isDigit = true := by
  simp only [text, start, String.toList_ofList, List.mem_append, List.mem_cons,
    List.not_mem_nil, or_false] at hc
  rcases hc with (hc | rfl | hc | rfl | hc | rfl) | hc
  all_goals first
    | exact .inl rfl
    | exact .inr (Py.isDigit_of_mem_natDigits hc)

theorem notMem_text {a : IPv4} {c : Char} (hc : c ≠ '.' ∧ c.isDigit = false) :
    c ∉ a.text.toList := by
  intro hmem
  rcases mem_text hmem with h | h
  · exact hc.1 h
  · rw [hc.2] at h
    cases h

theorem text_injective {a b : IPv4} (h : a.text = b.text) : a = b := by
  have hpoint : ∀ n : ℕ, '.' ∉ natDigits n := fun n hmem => by
    have := Py.isDigit_of_mem_natDigits hmem
    revert this
    decide
  have hdigits : ∀ m n : UInt8, natDigits m.toNat = natDigits n.toNat → m = n := by
    intro m n heq
    have := congrArg Py.digitsValue heq
    rw [Py.digitsValue_natDigits, Py.digitsValue_natDigits] at this
    exact UInt8.toNat_inj.1 this
  have hlists := String.ofList_injective h
  simp only [start, List.append_assoc, List.cons_append, List.nil_append] at hlists
  -- no number contains a point, so the first point ends the first number on both sides
  obtain ⟨h₁, hlists⟩ := Py.append_cons_inj (hpoint _) (hpoint _) hlists
  obtain ⟨h₂, hlists⟩ := Py.append_cons_inj (hpoint _) (hpoint _) hlists
  obtain ⟨h₃, h₄⟩ := Py.append_cons_inj (hpoint _) (hpoint _) hlists
  exact IPv4.ext (hdigits _ _ h₁) (hdigits _ _ h₂) (hdigits _ _ h₃) (hdigits _ _ h₄)

/-- The last character of an address. -/
theorem exists_text_eq (a : IPv4) :
    ∃ cs d, a.text.toList = cs ++ [d] ∧ d.isDigit = true := by
  have hne := Py.natDigits_ne_nil a.fourth.toNat
  refine ⟨a.start ++ (natDigits a.fourth.toNat).dropLast, (natDigits a.fourth.toNat).getLast hne,
    ?_, Py.isDigit_of_mem_natDigits (List.getLast_mem hne)⟩
  rw [text, String.toList_ofList, List.append_assoc, List.dropLast_append_getLast hne]

end IPv4

/-! ### What `openssl` documents -/

/-- The addresses among the names of a certificate. -/
def Certificate.addresses (certificate : Certificate) : List String :=
  certificate.names.filterMap fun name =>
    match name with
    | .ip address => some address
    | _ => none

/-- The text that is printed before the address of the server. -/
def printedStart : List Char :=
  "X509v3 Subject Alternative Name: \n    DNS:hypervisor-agent, ".toList

/-- What `openssl` makes of the extension file of the server, and what it prints then. -/
structure Documented (openssl : Openssl) : Prop where
  reads : ∀ a : IPv4, openssl.readNames (serverExtension a.text) = [.dns serverName, .ip a.text]
  prints : ∀ a : IPv4, openssl.printNames [.dns serverName, .ip a.text] =
    String.ofList (printedStart ++ "IP Address:".toList ++ a.text.toList ++ ['\n'])

/-- The text that is printed for a certificate has an address in it. -/
def Prints (openssl : Openssl) (certificate : Certificate) (b : IPv4) : Prop :=
  isIn (wanted b.text .server) (strip (openssl.printNames certificate.names)) = true

section Documented

variable {openssl : Openssl} (documented : Documented openssl)

include documented

theorem strip_printNames (a : IPv4) :
    strip (openssl.printNames [.dns serverName, .ip a.text]) =
      String.ofList (printedStart ++ "IP Address:".toList ++ a.text.toList) := by
  obtain ⟨cs, d, htext, hd⟩ := a.exists_text_eq
  obtain ⟨first, rest, hstart, hfirst⟩ :
      ∃ first rest, printedStart = first :: rest ∧ isSpace first = false :=
    ⟨_, _, rfl, by decide⟩
  rw [documented.prints, htext, hstart]
  have hstrip : strip (String.ofList (first :: (rest ++ "IP Address:".toList ++ cs ++ [d, '\n']))) =
      String.ofList (first :: (rest ++ "IP Address:".toList ++ cs ++ [d])) :=
    Py.strip_append_newline hfirst (Py.isSpace_of_isDigit hd)
  simpa only [List.cons_append, List.append_assoc, List.nil_append] using hstrip

/-- A certificate that was made for one address prints another if that one is a prefix of it. -/
theorem prints_iff {certificate : Certificate} {a b : IPv4}
    (hnames : certificate.names = [.dns serverName, .ip a.text]) :
    Prints openssl certificate b ↔ b.text.toList <+: a.text.toList := by
  -- the capital letter of the label is nowhere else in the text
  obtain ⟨label, hlabel, hrest⟩ : ∃ label, "IP Address:".toList = 'I' :: label ∧ 'I' ∉ label :=
    ⟨"P Address:".toList, by decide, by decide⟩
  have hstart : 'I' ∉ printedStart := by decide
  have hend : 'I' ∉ label ++ a.text.toList := by
    rw [List.mem_append, not_or]
    exact ⟨hrest, IPv4.notMem_text (by decide)⟩
  rw [Prints, hnames, strip_printNames documented, Py.isIn_iff, wanted, String.toList_append,
    hlabel, String.toList_ofList, List.append_assoc, List.cons_append, List.cons_append,
    Py.cons_isInfix_append_cons hstart hend, List.prefix_append_right_inj]

end Documented

/-! ### Two calls -/

section Calls

variable {openssl : Openssl} {fails : ℕ → Option Failure} {w w₁ w₂ : World} {a b : IPv4}

/-- The second call keeps the certificate that it finds if that prints its address. -/
theorem kept_iff_prints (h : ensureCertificates openssl fails b.text w₁ = (.ok (), w₂))
    {certificate : Certificate} (hfound : w₁.disk .serverCert = some (.certificate certificate)) :
    Kept openssl w₁ .server (wanted b.text .server) ↔ Prints openssl certificate b := by
  constructor
  · rintro ⟨-, other, hother, hin⟩
    rw [Leaf.cert, hfound] at hother
    cases hother
    exact hin
  · intro hin
    have hpair := pairs_of_ensureCertificates h .server
    rw [Leaf.cert, hfound] at hpair
    exact ⟨hpair, certificate, hfound, hin⟩

/-- After the second call: the certificate that it found if that prints the address, and otherwise
one that was made for the address. -/
theorem named_iff_of_found (documented : Documented openssl)
    (h : ensureCertificates openssl fails b.text w₁ = (.ok (), w₂)) {found : Certificate}
    (hfound : w₁.disk .serverCert = some (.certificate found)) :
    (∃ certificate, w₂.disk .serverCert = some (.certificate certificate) ∧
      certificate.addresses = [b.text]) ↔ (Prints openssl found b → found.addresses = [b.text]) := by
  rcases (ensureCertificates_eq_ok h).2 .server with ⟨hkept, hsame⟩ | ⟨hkept, key, ca, -, hmade⟩
  · rw [kept_iff_prints h hfound] at hkept
    rw [Leaf.cert, hfound] at hsame
    simp [hsame, hkept]
  · rw [kept_iff_prints h hfound] at hkept
    rw [extensionOf, documented.reads] at hmade
    rw [Leaf.cert] at hmade
    simp [hmade, hkept, Certificate.addresses]

/-- **The certificate after two calls.**  It names exactly the second address if and only if the
certificate that the first call kept does not print that address without naming exactly it, and the
certificate that the first call made was not made for a longer address. -/
theorem names_exactly_iff (documented : Documented openssl)
    (hfirst : ensureCertificates openssl fails a.text w = (.ok (), w₁))
    (hsecond : ensureCertificates openssl fails b.text w₁ = (.ok (), w₂)) :
    (∃ certificate, w₂.disk .serverCert = some (.certificate certificate) ∧
        certificate.addresses = [b.text]) ↔
      (Kept openssl w .server (wanted a.text .server) →
        ∀ certificate, w.disk .serverCert = some (.certificate certificate) →
          Prints openssl certificate b → certificate.addresses = [b.text]) ∧
      (¬ Kept openssl w .server (wanted a.text .server) →
        b.text.toList <+: a.text.toList → a = b) := by
  rcases (ensureCertificates_eq_ok hfirst).2 .server with
    ⟨hkept, hsame⟩ | ⟨hkept, key, ca, -, hmade⟩
  · obtain ⟨-, found, hfound, -⟩ := id hkept
    rw [hfound] at hsame
    rw [named_iff_of_found documented hsecond hsame]
    rw [Leaf.cert] at hfound
    simp [hkept, hfound]
  · rw [extensionOf, documented.reads] at hmade
    rw [named_iff_of_found documented hsecond hmade, prints_iff documented rfl]
    have hnames : Certificate.addresses ⟨key, ca.key, [.dns serverName, .ip a.text]⟩ = [a.text] :=
      rfl
    have hinj : [a.text] = [b.text] ↔ a = b :=
      ⟨fun heq => IPv4.text_injective (List.cons.inj heq).1, fun heq => heq ▸ rfl⟩
    rw [hnames, hinj]
    simp [hkept]

end Calls

/-! ### A run -/

/-- A name as an extension file spells it. -/
def readName (entry : List Char) : Option GeneralName :=
  match Py.partition ':' entry with
  | some (kind, name) =>
    if kind = "DNS".toList then some (.dns (String.ofList name))
    else if kind = "IP".toList then some (.ip (String.ofList name))
    else if kind = "URI".toList then some (.uri (String.ofList name))
    else none
  | none => none

/-- A name as `openssl` prints it. -/
def printName : GeneralName → List Char
  | .dns name => "DNS:".toList ++ name.toList
  | .ip address => "IP Address:".toList ++ address.toList
  | .uri name => "URI:".toList ++ name.toList

/-- The part of `openssl` that the script relies on. -/
def Openssl.standard : Openssl where
  readNames text :=
    match (Py.partition '\n' text.toList).bind fun lines => Py.partition '=' lines.1 with
    | some (_, names) => (names.splitOn ',').filterMap readName
    | none => []
  printNames names := String.ofList ("X509v3 Subject Alternative Name: \n    ".toList ++
    ", ".toList.intercalate (names.map printName) ++ ['\n'])

/-- The only name in the extension file that is not fixed is the address. -/
theorem toList_serverExtension (address : String) :
    (serverExtension address).toList =
      ("subjectAltName".toList ++ '=' :: ("DNS:hypervisor-agent".toList ++ ',' ::
        ("IP:".toList ++ address.toList))) ++ '\n' :: "extendedKeyUsage=serverAuth\n".toList := by
  have hstart : "subjectAltName=DNS:".toList ++ serverName.toList ++ ",IP:".toList =
      "subjectAltName".toList ++ '=' :: ("DNS:hypervisor-agent".toList ++ ',' :: "IP:".toList) := by
    decide
  have hend : "\nextendedKeyUsage=serverAuth\n".toList =
      '\n' :: "extendedKeyUsage=serverAuth\n".toList := by decide
  unfold serverExtension
  rw [String.toList_append, String.toList_append, String.toList_append, String.toList_append,
    hstart, hend]
  simp only [List.append_assoc, List.cons_append]

theorem readName_ip (address : String) :
    readName ("IP:".toList ++ address.toList) = some (.ip address) := by
  have hcolon : "IP:".toList ++ address.toList = "IP".toList ++ ':' :: address.toList := by
    have : "IP:".toList = "IP".toList ++ [':'] := by decide
    rw [this, List.append_assoc, List.singleton_append]
  have hkind : "IP".toList ≠ "DNS".toList := by decide
  rw [readName, hcolon, Py.partition_append (by decide)]
  dsimp only
  rw [if_neg hkind, if_pos rfl, String.ofList_toList]

theorem documented_standard : Documented Openssl.standard where
  reads a := by
    have hnewline : '\n' ∉ a.text.toList := IPv4.notMem_text (by decide)
    have hcomma : ',' ∉ a.text.toList := IPv4.notMem_text (by decide)
    have hline : '\n' ∉ "subjectAltName".toList ++ '=' :: ("DNS:hypervisor-agent".toList ++
        ',' :: ("IP:".toList ++ a.text.toList)) := by
      have hfixed : '\n' ∉ "subjectAltName".toList ∧ '\n' ∉ "DNS:hypervisor-agent".toList ∧
          '\n' ∉ "IP:".toList := by decide
      simp only [List.mem_append, List.mem_cons, not_or]
      exact ⟨hfixed.1, by decide, hfixed.2.1, by decide, hfixed.2.2, hnewline⟩
    have hlast : ',' ∉ "IP:".toList ++ a.text.toList := by
      rw [List.mem_append, not_or]
      exact ⟨by decide, hcomma⟩
    have hdns : readName "DNS:hypervisor-agent".toList = some (.dns serverName) := by decide
    unfold Openssl.standard
    dsimp only
    rw [toList_serverExtension, Py.partition_append hline]
    dsimp only [Option.bind_some]
    rw [Py.partition_append (by decide)]
    dsimp only
    rw [List.splitOn_append_cons_self_of_not_mem (by decide), List.splitOn_eq_singleton hlast,
      List.filterMap_cons_some hdns, List.filterMap_cons_some (readName_ip _), List.filterMap_nil]
  prints a := by
    have hstart : "X509v3 Subject Alternative Name: \n    ".toList ++
        ("DNS:".toList ++ serverName.toList ++ ", ".toList) = printedStart := by decide
    have hparts : ", ".toList.intercalate ([.dns serverName, .ip a.text].map printName) =
        "DNS:".toList ++ serverName.toList ++ ", ".toList ++
          ("IP Address:".toList ++ a.text.toList) := by
      rw [List.map_cons, List.map_cons, List.map_nil, List.intercalate_cons_cons,
        List.intercalate_singleton]
      rfl
    show String.ofList _ = _
    rw [hparts, ← hstart]
    simp only [List.append_assoc]

/-- No command fails. -/
def noFailure : ℕ → Option Failure := fun _ => none

/-- The world after a call in which no command fails. -/
def World.ensured (w : World) (address : String) : World :=
  (ensureCertificates Openssl.standard noFailure address w).2

/-- `10.0.0.n`. -/
def tenNet (n : UInt8) : IPv4 := ⟨10, 0, 0, n⟩

theorem eq_ensured {w : World} {address : String}
    (h : (ensureCertificates Openssl.standard noFailure address w).1 = .ok ()) :
    ensureCertificates Openssl.standard noFailure address w = (.ok (), w.ensured address) := by
  rw [← h, World.ensured]

theorem tenNet_calls :
    (ensureCertificates Openssl.standard noFailure (tenNet 12).text World.empty).1 = .ok () ∧
      (ensureCertificates Openssl.standard noFailure (tenNet 1).text
        (World.empty.ensured (tenNet 12).text)).1 = .ok () ∧
      ((World.empty.ensured (tenNet 12).text).ensured (tenNet 1).text).disk .serverCert =
        some (.certificate ⟨2, 0, [.dns serverName, .ip (tenNet 12).text]⟩) := by
  decide +kernel

/-- The certificate for `10.0.0.12` is kept for `10.0.0.1`. -/
theorem not_names_prefix : ¬ ∀ (fails : ℕ → Option Failure) (a b : IPv4) (w w₁ w₂ : World),
    ensureCertificates Openssl.standard fails a.text w = (.ok (), w₁) →
    ensureCertificates Openssl.standard fails b.text w₁ = (.ok (), w₂) →
    ∃ certificate, w₂.disk .serverCert = some (.certificate certificate) ∧
      certificate.addresses = [b.text] := by
  intro h
  obtain ⟨hfirst, hsecond, hkept⟩ := tenNet_calls
  obtain ⟨certificate, hcert, haddresses⟩ :=
    h noFailure (tenNet 12) (tenNet 1) _ _ _ (eq_ensured hfirst) (eq_ensured hsecond)
  rw [hkept] at hcert
  cases hcert
  revert haddresses
  decide

/-- `10.0.0.1` is the beginning of `10.0.0.12`, and the certificate does not name it. -/
theorem names_exactly_iff_tenNet :
    (∃ certificate, ((World.empty.ensured (tenNet 12).text).ensured (tenNet 1).text).disk
        .serverCert = some (.certificate certificate) ∧
        certificate.addresses = [(tenNet 1).text]) ↔
      (Kept Openssl.standard World.empty .server (wanted (tenNet 12).text .server) →
        ∀ certificate, World.empty.disk .serverCert = some (.certificate certificate) →
          Prints Openssl.standard certificate (tenNet 1) →
            certificate.addresses = [(tenNet 1).text]) ∧
      (¬ Kept Openssl.standard World.empty .server (wanted (tenNet 12).text .server) →
        (tenNet 1).text.toList <+: (tenNet 12).text.toList → tenNet 12 = tenNet 1) :=
  names_exactly_iff documented_standard (eq_ensured tenNet_calls.1) (eq_ensured tenNet_calls.2.1)

end HostAgent
