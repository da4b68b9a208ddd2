import K8Labs.HostAgent.Names

/-!
# The chain of the certificates over a history

A history is a list of calls of `ensure_certificates` and of removals of whole key/certificate
pairs, from an empty directory on; any command of a call may fail.  After a call that succeeded both
leaves should be signed by the authority on disk (`Signed`).

* `signed_call_iff` : a call that succeeded leaves the leaves signed **if and only if** every leaf
  that it kept was signed before it; `ensure_pair` and `certificate_has_san` never look at the
  signature.
* `signed_history` : over all histories this is the exact condition, and it is met by every history
  in which no call finds a leaf without an authority.

A removed authority is made anew with another key, and the leaves that are still there stay signed
by the old one.
-/

namespace HostAgent

open Py (Exc Effect isIn strip)

variable {openssl : Openssl} {fails : ℕ → Option Failure}

/-! ### Histories -/

/-- A pair of a key and a certificate. -/
inductive Pair where
  | authority
  | leaf (leaf : Leaf)

def Pair.key : Pair → TlsFile
  | .authority => .caKey
  | .leaf l => l.key

def Pair.cert : Pair → TlsFile
  | .authority => .caCert
  | .leaf l => l.cert

/-- What happens to the directory. -/
inductive Event where
  | ensure (address : String)
  | remove (pair : Pair)

/-- The files of a pair are removed. -/
def World.remove (w : World) (pair : Pair) : World :=
  ⟨(w.disk.put pair.key none).put pair.cert none, w.commands⟩

variable (openssl fails) in
/-- The directory after an event. -/
def step (w : World) : Event → World
  | .ensure address => (ensureCertificates openssl fails address w).2
  | .remove pair => w.remove pair

variable (openssl fails) in
/-- The directory after a history. -/
def after (history : List Event) : World := history.foldl (step openssl fails) .empty

theorem after_append_singleton (history : List Event) (event : Event) :
    after openssl fails (history ++ [event]) =
      step openssl fails (after openssl fails history) event := by
  rw [after, List.foldl_append]
  rfl

/-- The history has a call with the address after the events before it. -/
def Calls (history before : List Event) (address : String) : Prop :=
  before ++ [.ensure address] <+: history

variable (openssl fails) in
/-- The call after these events succeeds. -/
def Succeeds (before : List Event) (address : String) : Prop :=
  (ensureCertificates openssl fails address (after openssl fails before)).1 = .ok ()

/-- The authority on disk has signed the leaf. -/
def SignedBy (w : World) (leaf : Leaf) : Prop :=
  ∃ ca certificate, w.disk .caCert = some (.certificate ca) ∧
    w.disk leaf.cert = some (.certificate certificate) ∧ certificate.issuer = ca.key

/-- Both leaves are signed by the authority on disk. -/
def Signed (w : World) : Prop := ∀ leaf, SignedBy w leaf

/-- A leaf is there, and the authority is not. -/
def LacksAuthority (w : World) : Prop :=
  w.disk .caKey = none ∧ w.disk .caCert = none ∧
    ∃ leaf : Leaf, (w.disk leaf.key).isSome ∧ (w.disk leaf.cert).isSome

/-! ### What the steps preserve -/

section Preserves

variable {inv : World → Prop} {output : TlsFile}

theorem preserves_run {result : World → Option Content}
    (hdone : ∀ w content, inv w → result w = some content →
      inv ⟨w.disk.put output (some content), w.commands + 1⟩)
    (hpartly : ∀ w, inv w → inv ⟨w.disk.put output (some .damaged), w.commands + 1⟩)
    (huntouched : ∀ w, inv w → inv ⟨w.disk, w.commands + 1⟩) :
    Effect.Preserves inv (run fails output result) :=
  ends_run hdone (fun _ => id) hpartly huntouched

theorem preserves_unlink {file : TlsFile} (h : ∀ w, inv w → inv ⟨w.disk.put file none, w.commands⟩) :
    Effect.Preserves inv (unlink file) := by
  refine .bind Effect.preserves_get fun w => ?_
  split_ifs
  · exact Effect.preserves_throw _
  · exact Effect.preserves_modify h

theorem preserves_privatePath (file : TlsFile) : Effect.Preserves inv (privatePath file) := by
  refine .bind Effect.preserves_get fun w => ?_
  split_ifs
  · exact Effect.preserves_throw _
  · exact Effect.preserves_pure _

theorem preserves_certificateHasSan {file : TlsFile} {value : String}
    (h : ∀ w, inv w → inv ⟨w.disk, w.commands + 1⟩) :
    Effect.Preserves inv (certificateHasSan openssl fails file value) := by
  refine .of_all fun w r w' hw hrun => ?_
  unfold certificateHasSan at hrun
  split at hrun <;> cases hrun
  · exact h w hw
  · exact h w hw

/-- What an invariant has to survive, to survive the calls that keep or make a leaf. -/
structure Survives (inv : World → Prop) (leaf : Leaf) : Prop where
  waits : ∀ w, inv w → inv ⟨w.disk, w.commands + 1⟩
  extended : ∀ w text, inv w → inv ⟨w.disk.put leaf.ext (some (.text text)), w.commands⟩
  keyed : ∀ w, inv w → inv ⟨w.disk.put leaf.key (some (.key w.commands)), w.commands + 1⟩
  requested : ∀ w number, inv w → w.disk leaf.key = some (.key number) →
    inv ⟨w.disk.put leaf.csr (some (.request number)), w.commands + 1⟩
  certified : ∀ openssl w content, inv w → signed openssl leaf.csr leaf.ext w = some content →
    inv ⟨w.disk.put leaf.cert (some content), w.commands + 1⟩
  damaged : ∀ file ∈ leaf.files, ∀ w, inv w →
    inv ⟨w.disk.put file (some .damaged), w.commands + 1⟩
  removed : ∀ file ∈ leaf.files, ∀ w, inv w → inv ⟨w.disk.put file none, w.commands⟩

variable {leaf : Leaf}

theorem Survives.createCertificate (h : Survives inv leaf) (extension : String) :
    Effect.Preserves inv (createCertificate openssl fails leaf extension) := by
  have hfiles : leaf.key ∈ leaf.files ∧ leaf.cert ∈ leaf.files ∧ leaf.csr ∈ leaf.files ∧
      leaf.ext ∈ leaf.files := by
    simp [Leaf.files]
  obtain ⟨hkey, hcert, hcsr, hext⟩ := hfiles
  refine .bind (Effect.preserves_modify fun w hw => h.extended w _ hw) fun _ => ?_
  refine .bind (preserves_run ?_ (h.damaged _ hkey) h.waits) fun _ => ?_
  · intro w content hw hresult
    cases hresult
    exact h.keyed w hw
  refine .bind (preserves_run ?_ (h.damaged _ hcsr) h.waits) fun _ => ?_
  · intro w content hw hresult
    split at hresult
    · cases hresult
      exact h.requested w _ hw ‹_›
    · cases hresult
  refine .bind (preserves_run (fun w content hw => h.certified openssl w content hw)
    (h.damaged _ hcert) h.waits) fun _ => ?_
  refine .bind (preserves_unlink (h.removed _ hcsr)) fun _ => ?_
  exact preserves_unlink (h.removed _ hext)

theorem Survives.ensureLeaf (h : Survives inv leaf) (present : Bool) (value extension : String) :
    Effect.Preserves inv (ensureLeaf openssl fails leaf present value
      (HostAgent.createCertificate openssl fails leaf extension)) := by
  have hstays : Effect.Preserves inv (stays openssl fails leaf present value) := by
    unfold stays
    split
    · refine .bind (preserves_certificateHasSan h.waits) fun named => ?_
      split
      · exact Effect.preserves_pure _
      · refine .bind (preserves_unlink (h.removed _ (by simp [Leaf.files]))) fun _ => ?_
        refine .bind (preserves_unlink (h.removed _ (by simp [Leaf.files]))) fun _ => ?_
        exact Effect.preserves_pure _
    · exact Effect.preserves_pure _
  refine .bind hstays fun kept => ?_
  split
  · exact Effect.preserves_pure _
  · exact h.createCertificate extension

end Preserves

/-! ### The keys are older than the next command -/

/-- Every key that is on disk was made by an earlier command. -/
def Content.Before (n : ℕ) : Content → Prop
  | .key number => number < n
  | .request number => number < n
  | .certificate made => made.key < n ∧ made.issuer < n
  | .text _ => True
  | .damaged => True

theorem Content.Before.mono {m n : ℕ} {content : Content} (h : content.Before m) (hmn : m ≤ n) :
    content.Before n := by
  cases content with
  | key number => exact Nat.lt_of_lt_of_le h hmn
  | request number => exact Nat.lt_of_lt_of_le h hmn
  | certificate certificate =>
    exact ⟨Nat.lt_of_lt_of_le h.1 hmn, Nat.lt_of_lt_of_le h.2 hmn⟩
  | text _ => trivial
  | damaged => trivial

def Aged (w : World) : Prop :=
  ∀ file content, w.disk file = some content → content.Before w.commands

theorem Aged.put {w : World} {file : TlsFile} {new : Option Content} {n : ℕ} (h : Aged w)
    (hn : w.commands ≤ n) (hnew : ∀ content, new = some content → content.Before n) :
    Aged ⟨w.disk.put file new, n⟩ := by
  intro other content hcontent
  dsimp only at hcontent ⊢
  by_cases heq : other = file
  · subst heq
    rw [Disk.put_self] at hcontent
    exact hnew content hcontent
  · rw [Disk.put_of_ne heq] at hcontent
    exact (h other content hcontent).mono hn

theorem Aged.wait {w : World} (h : Aged w) : Aged ⟨w.disk, w.commands + 1⟩ :=
  fun file content hcontent => (h file content hcontent).mono (Nat.le_succ _)

theorem survives_aged (leaf : Leaf) : Survives Aged leaf where
  waits _ h := h.wait
  extended w text h := h.put le_rfl (by rintro _ ⟨⟩; trivial)
  keyed w h := h.put (Nat.le_succ _) (by rintro _ ⟨⟩; exact Nat.lt_succ_self _)
  requested w number h hkey := h.put (Nat.le_succ _) (by
    rintro _ ⟨⟩
    exact (h _ _ hkey).mono (Nat.le_succ _))
  certified openssl w content h hsigned := h.put (Nat.le_succ _) (by
    rintro _ ⟨⟩
    obtain ⟨key, names, ca, hrequest, -, hca, rfl⟩ := signed_eq_some hsigned
    exact ⟨(h _ _ hrequest).mono (Nat.le_succ _), ((h _ _ hca).mono (Nat.le_succ _)).1⟩)
  damaged file _ w h := h.put (Nat.le_succ _) (by rintro _ ⟨⟩; trivial)
  removed file _ w h := h.put le_rfl (by rintro _ ⟨⟩)

theorem preserves_ensurePair {inv : World → Prop} (key certificate : TlsFile)
    (description : String) : Effect.Preserves inv (ensurePair key certificate description) := by
  refine .bind Effect.preserves_get fun w => ?_
  split_ifs
  · exact Effect.preserves_throw _
  · exact Effect.preserves_pure _

theorem preserves_aged_createAuthority : Effect.Preserves Aged (createAuthority fails) := by
  refine .bind (preserves_run ?_ ?_ fun _ h => h.wait) fun _ => preserves_run ?_ ?_ fun _ h => h.wait
  · intro w content h hresult
    cases hresult
    exact h.put (Nat.le_succ _) (by rintro _ ⟨⟩; exact Nat.lt_succ_self _)
  · exact fun w h => h.put (Nat.le_succ _) (by rintro _ ⟨⟩; trivial)
  · intro w content h hresult
    split at hresult
    · rename_i number hkey
      cases hresult
      have := (h _ _ hkey).mono (Nat.le_succ w.commands)
      exact h.put (Nat.le_succ _) (by rintro _ ⟨⟩; exact ⟨this, this⟩)
    · cases hresult
  · exact fun w h => h.put (Nat.le_succ _) (by rintro _ ⟨⟩; trivial)

/-- The last part of a call: the two leaves and the modes of the keys. -/
theorem preserves_leaves {inv : World → Prop} (h : ∀ leaf, Survives inv leaf)
    (server manager : Bool) (address : String) :
    Effect.Preserves inv (do
      ensureLeaf openssl fails .server server ("IP Address:" ++ address)
        (createServerCertificate openssl fails address)
      ensureLeaf openssl fails .manager manager managerIdentity
        (createManagerCertificate openssl fails)
      privatePath .caKey
      privatePath .serverKey
      privatePath .managerKey) := by
  refine .bind ((h .server).ensureLeaf _ _ _) fun _ => ?_
  refine .bind ((h .manager).ensureLeaf _ _ _) fun _ => ?_
  refine .bind (preserves_privatePath _) fun _ => ?_
  exact .bind (preserves_privatePath _) fun _ => preserves_privatePath _

theorem aged_after (history : List Event) : Aged (after openssl fails history) := by
  induction history using List.reverseRecOn with
  | nil => rintro file content ⟨⟩
  | append_singleton history event ih =>
    rw [after_append_singleton]
    cases event with
    | ensure address =>
      refine Effect.Preserves.after ?_ ih
      refine .bind (preserves_ensurePair _ _ _) fun present => ?_
      refine .bind (preserves_ensurePair _ _ _) fun server => ?_
      refine .bind (preserves_ensurePair _ _ _) fun manager => ?_
      refine .bind ?_ fun _ => preserves_leaves survives_aged server manager address
      unfold ensureAuthority
      split
      · exact Effect.preserves_pure _
      · exact preserves_aged_createAuthority
    | remove pair => exact (ih.put le_rfl (by rintro _ ⟨⟩)).put le_rfl (by rintro _ ⟨⟩)

/-! ### One call -/

/-- **One call.**  After a call that succeeded both leaves are signed if and only if every leaf that
it kept was signed before. -/
theorem signed_call_iff {w w' : World} {address : String} (haged : Aged w)
    (h : ensureCertificates openssl fails address w = (.ok (), w')) :
    Signed w' ↔ ∀ leaf, Kept openssl w leaf (wanted address leaf) → SignedBy w leaf := by
  obtain ⟨hca, hleaves⟩ := ensureCertificates_eq_ok h
  constructor
  · intro hsigned leaf hkept
    obtain ⟨ca, certificate, hauthority, hcert, hissuer⟩ := hsigned leaf
    rcases hleaves leaf with ⟨-, hsame⟩ | ⟨hnot, -⟩
    · rw [hsame] at hcert
      rcases hca with ⟨-, hstays⟩ | ⟨-, hnew⟩
      · exact ⟨ca, certificate, hstays ▸ hauthority, hcert, hissuer⟩
      · -- the new authority has a key that is on no certificate yet
        rw [hnew] at hauthority
        cases hauthority
        have hold : certificate.issuer < w.commands := (haged _ _ hcert).2
        rw [hissuer] at hold
        exact absurd hold (Nat.lt_irrefl _)
    · exact absurd hkept hnot
  · intro hsigned leaf
    rcases hleaves leaf with ⟨hkept, hsame⟩ | ⟨-, key, ca, hauthority, hmade⟩
    · obtain ⟨ca, certificate, hauthority, hcert, hissuer⟩ := hsigned leaf hkept
      rcases hca with ⟨-, hstays⟩ | ⟨hnone, -⟩
      · exact ⟨ca, certificate, hstays.trans hauthority, hsame.trans hcert, hissuer⟩
      · rw [hnone] at hauthority
        cases hauthority
    · exact ⟨ca, _, hauthority, hmade, rfl⟩

/-! ### Histories in which no call finds a leaf without an authority -/

/-- Every leaf that is on disk is signed by the authority, if that is there. -/
def Chained (w : World) : Prop :=
  ∀ (leaf : Leaf) (certificate : Certificate), w.disk leaf.cert = some (.certificate certificate) →
    (w.disk .caKey = none ∧ w.disk .caCert = none) ∨
      ∃ ca, w.disk .caCert = some (.certificate ca) ∧ certificate.issuer = ca.key

/-- There is no certificate of a leaf. -/
def Bare (w : World) : Prop := ∀ leaf : Leaf, w.disk leaf.cert = none

theorem Bare.chained {w : World} (h : Bare w) : Chained w := fun leaf certificate hcert => by
  rw [h leaf] at hcert
  cases hcert

/-- The files of the leaves are not those of the authority, and a leaf has one certificate. -/
theorem Leaf.files_apart (leaf : Leaf) : ∀ file ∈ leaf.files,
    .caKey ≠ file ∧ .caCert ≠ file ∧ ∀ other : Leaf, other.cert = file → file = leaf.cert := by
  intro file hfile
  refine ⟨?_, ?_, fun other => ?_⟩
  · revert file
    cases leaf <;> decide
  · revert file
    cases leaf <;> decide
  · revert file
    cases leaf <;> cases other <;> decide

/-- A file of a leaf changes, and what is written is no certificate, or one that the authority has
signed. -/
theorem Chained.put {w : World} {leaf : Leaf} {file : TlsFile} {new : Option Content} {n : ℕ}
    (h : Chained w) (hfile : file ∈ leaf.files)
    (hnew : file = leaf.cert → ∀ certificate, new = some (.certificate certificate) →
      ∃ ca, w.disk .caCert = some (.certificate ca) ∧ certificate.issuer = ca.key) :
    Chained ⟨w.disk.put file new, n⟩ := by
  intro other certificate hcert
  obtain ⟨hkey, hca, honly⟩ := leaf.files_apart file hfile
  dsimp only at hcert ⊢
  rw [Disk.put_of_ne hkey, Disk.put_of_ne hca]
  by_cases heq : other.cert = file
  · rw [heq, Disk.put_self] at hcert
    exact .inr (hnew (honly other heq) certificate hcert)
  · rw [Disk.put_of_ne heq] at hcert
    exact h other certificate hcert

theorem survives_chained (leaf : Leaf) : Survives Chained leaf where
  waits _ h := h
  extended w text h := Chained.put h (by simp [Leaf.files] : _ ∈ leaf.files) (by rintro - _ ⟨⟩)
  keyed w h := Chained.put h (by simp [Leaf.files] : _ ∈ leaf.files) (by rintro - _ ⟨⟩)
  requested w number h _ := Chained.put h (by simp [Leaf.files] : _ ∈ leaf.files) (by rintro - _ ⟨⟩)
  certified openssl w content h hsigned := Chained.put h (by simp [Leaf.files] : _ ∈ leaf.files) (by
    obtain ⟨key, names, ca, -, -, hca, rfl⟩ := signed_eq_some hsigned
    rintro - _ ⟨⟩
    exact ⟨ca, hca, rfl⟩)
  damaged file hfile w h := h.put hfile (by rintro - _ ⟨⟩)
  removed file hfile w h := h.put hfile (by rintro - _ ⟨⟩)

theorem preserves_bare_createAuthority : Effect.Preserves Bare (createAuthority fails) := by
  have hput : ∀ file, file = .caKey ∨ file = .caCert → ∀ (w : World) (content : Content), Bare w →
      Bare ⟨w.disk.put file (some content), w.commands + 1⟩ := by
    rintro file hfile w content h leaf
    have hne : leaf.cert ≠ file := by
      rcases hfile with rfl | rfl <;> cases leaf <;> decide
    exact (Disk.put_of_ne hne).trans (h leaf)
  refine .bind (preserves_run ?_ ?_ fun _ h => h) fun _ => preserves_run ?_ ?_ fun _ h => h
  · exact fun w content h _ => hput _ (.inl rfl) w content h
  · exact fun w h => hput _ (.inl rfl) w _ h
  · exact fun w content h _ => hput _ (.inr rfl) w content h
  · exact fun w h => hput _ (.inr rfl) w _ h

/-- The check of a pair does not change the directory. -/
theorem ensurePair_cases (key certificate : TlsFile) (description : String) (w : World) :
    (∃ e, ensurePair key certificate description w = (.error e, w)) ∨
      ∃ present, ensurePair key certificate description w = (.ok present, w) := by
  have hget : (Effect.get : Effect World Exc World) w = (.ok w, w) := rfl
  rw [ensurePair, Effect.bind_of_ok hget]
  split_ifs
  · exact .inl ⟨_, rfl⟩
  · exact .inr ⟨_, rfl⟩

/-- A call that does not find a leaf without an authority keeps the chain, however it ends. -/
theorem Chained.ensureCertificates {w : World} (h : Chained w) (hlacks : ¬ LacksAuthority w)
    (address : String) : Chained (ensureCertificates openssl fails address w).2 := by
  unfold HostAgent.ensureCertificates
  rcases ensurePair_cases .caKey .caCert "CA" w with ⟨e, hca⟩ | ⟨caExists, hca⟩
  · rwa [Effect.bind_of_error hca]
  rw [Effect.bind_of_ok hca]
  rcases ensurePair_cases .serverKey .serverCert "server" w with
    ⟨e, hserver⟩ | ⟨serverExists, hserver⟩
  · rwa [Effect.bind_of_error hserver]
  rw [Effect.bind_of_ok hserver]
  rcases ensurePair_cases .managerKey .managerCert "manager" w with
    ⟨e, hmanager⟩ | ⟨managerExists, hmanager⟩
  · rwa [Effect.bind_of_error hmanager]
  rw [Effect.bind_of_ok hmanager]
  obtain ⟨-, hkey, hcert⟩ := ensurePair_eq_ok hca
  obtain ⟨-, hserverKey, hserverCert⟩ := ensurePair_eq_ok hserver
  obtain ⟨-, hmanagerKey, hmanagerCert⟩ := ensurePair_eq_ok hmanager
  have hpair : ∀ leaf : Leaf, (w.disk leaf.key).isSome = (w.disk leaf.cert).isSome := by
    rintro (_ | _)
    · exact hserverKey.trans hserverCert.symm
    · exact hmanagerKey.trans hmanagerCert.symm
  have hauthority : Effect.Ends (fun w' => w' = w) (ensureAuthority fails caExists)
      (fun _ => Chained) Chained := by
    unfold ensureAuthority
    cases caExists with
    | true => exact Effect.ends_pure fun w' heq => heq ▸ h
    | false =>
      -- no leaf is there, since none is without an authority
      have hbare : Bare w := by
        intro leaf
        by_contra hthere
        have hsome := Option.ne_none_iff_isSome.1 hthere
        exact hlacks ⟨by simpa using hkey, by simpa using hcert, leaf,
          (hpair leaf).trans hsome, hsome⟩
      have hstart : ∀ w', w' = w → Bare w' := by
        rintro _ rfl
        exact hbare
      exact (preserves_bare_createAuthority.weaken hstart).imp
        (fun _ _ => Bare.chained) fun _ => Bare.chained
  refine Effect.Ends.after (hauthority.bind fun _ => ?_) rfl
  exact preserves_leaves survives_chained serverExists managerExists address

/-- Removing a whole pair breaks no chain. -/
theorem Chained.remove {w : World} (h : Chained w) (pair : Pair) : Chained (w.remove pair) := by
  cases pair with
  | authority =>
    intro leaf certificate hcert
    exact .inl ⟨rfl, rfl⟩
  | leaf leaf =>
    have hkey : Chained ⟨w.disk.put leaf.key none, w.commands⟩ :=
      (survives_chained leaf).removed _ (by simp [Leaf.files]) w h
    exact (survives_chained leaf).removed _ (by simp [Leaf.files, Pair.cert]) _ hkey

theorem chained_after {history : List Event}
    (h : ∀ before address, Calls history before address →
      ¬ LacksAuthority (after openssl fails before)) :
    Chained (after openssl fails history) := by
  induction history using List.reverseRecOn with
  | nil => exact Bare.chained fun _ => rfl
  | append_singleton history event ih =>
    have hbefore := ih fun before address hcall =>
      h before address (hcall.trans (List.prefix_append _ _))
    rw [after_append_singleton]
    cases event with
    | ensure address => exact hbefore.ensureCertificates (h history address List.prefix_rfl) address
    | remove pair => exact hbefore.remove pair

/-- **The chain over a history.**  After every call that succeeded both leaves are signed by the
authority on disk, if and only if every leaf that such a call kept was signed before it; and this is
so in every history in which no call finds a leaf without an authority. -/
theorem signed_history (openssl : Openssl) (fails : ℕ → Option Failure) (history : List Event) :
    ((∀ before address, Calls history before address → Succeeds openssl fails before address →
        Signed (after openssl fails (before ++ [.ensure address]))) ↔
      ∀ before address, Calls history before address → Succeeds openssl fails before address →
        ∀ leaf, Kept openssl (after openssl fails before) leaf (wanted address leaf) →
          SignedBy (after openssl fails before) leaf) ∧
    ((∀ before address, Calls history before address →
        ¬ LacksAuthority (after openssl fails before)) →
      ∀ before address, Calls history before address → Succeeds openssl fails before address →
        Signed (after openssl fails (before ++ [.ensure address]))) := by
  have hcall : ∀ before address, Succeeds openssl fails before address →
      (Signed (after openssl fails (before ++ [.ensure address])) ↔
        ∀ leaf, Kept openssl (after openssl fails before) leaf (wanted address leaf) →
          SignedBy (after openssl fails before) leaf) := by
    intro before address hsucceeds
    rw [after_append_singleton]
    exact signed_call_iff (aged_after before) (Prod.ext hsucceeds rfl)
  refine ⟨?_, fun hlacks before address hcalls hsucceeds => ?_⟩
  · refine forall₂_congr fun before address => ?_
    exact forall₂_congr fun _ hsucceeds => hcall before address hsucceeds
  · rw [hcall before address hsucceeds]
    rintro leaf ⟨hkey, certificate, hcert, -⟩
    have hchained : Chained (after openssl fails before) := chained_after fun earlier other hother =>
      hlacks earlier other (hother.trans ((List.prefix_append _ _).trans hcalls))
    rcases hchained leaf certificate hcert with ⟨hnoKey, hnoCert⟩ | ⟨ca, hca, hissuer⟩
    · exact absurd ⟨hnoKey, hnoCert, leaf, hkey, by rw [hcert]; rfl⟩ (hlacks before address hcalls)
    · exact ⟨ca, certificate, hca, hcert, hissuer⟩

/-- A server that is installed, loses its authority and is installed again. -/
def reinstalled : List Event := [.ensure "10.0.0.1", .remove .authority]

theorem reinstalled_again :
    (ensureCertificates Openssl.standard noFailure "10.0.0.1"
        (after Openssl.standard noFailure reinstalled)).1 = .ok () ∧
      (after Openssl.standard noFailure (reinstalled ++ [.ensure "10.0.0.1"])).disk .caCert =
        some (.certificate ⟨8, 8, []⟩) ∧
      (after Openssl.standard noFailure (reinstalled ++ [.ensure "10.0.0.1"])).disk .serverCert =
        some (.certificate ⟨2, 0, [.dns serverName, .ip "10.0.0.1"]⟩) := by
  decide +kernel

/-- The leaves are kept, and they are signed by the authority that is gone. -/
theorem not_signed_reinstalled : ¬ ∀ (fails : ℕ → Option Failure) (history before : List Event)
    (address : String), Calls history before address →
      Succeeds Openssl.standard fails before address →
        Signed (after Openssl.standard fails (before ++ [.ensure address])) := by
  intro h
  obtain ⟨hsucceeds, hnew, hold⟩ := reinstalled_again
  obtain ⟨ca, certificate, hca, hcert, hissuer⟩ :=
    h noFailure _ reinstalled "10.0.0.1" List.prefix_rfl hsucceeds .server
  rw [hnew] at hca
  rw [Leaf.cert, hold] at hcert
  cases hca
  cases hcert
  revert hissuer
  decide

end HostAgent
