import K8Labs.Management.WebhookManifest
import K8Labs.Python.BlockText
import K8Labs.Python.Effect
import K8Labs.Python.TextFile

/-!
# Patching the locked provider

`patch_provider` of `scripts/bootstrap_management.py` edits two files of the provider source, the
manager deployment and the webhook manifest.  The webhook manifest is written before it is known
that there is a deployment at all.  A write to a file that is there succeeds; a disk that is full or
a file that may not be written is not modelled.

* `patchProvider_of_plan`, `patchProvider_of_no_plan` : how a run ends.
* `again_of_plan` : a second run leaves the documents as they are, with the SSH key once.
* `patchProvider_iff` : **a run that raises leaves both files as they were if and only if, where no
  document is a deployment, the webhook manifest already is what would be written.**
-/

namespace Management

namespace Provider

open Py (Exc Path FileSystem Effect Value bind_eq_ok)

open Py.FileSystem (readText textAt_eq_some)

/-- What reads and writes the documents of a file. -/
structure Yaml where
  /-- `list(yaml.safe_load_all(text))`. -/
  load : String → Except Exc (List Value)
  /-- `yaml.safe_dump_all(documents, sort_keys=False)`. -/
  dump : List Value → String

/-- What is passed to a run. -/
structure Arguments where
  source : Path
  image : String
  settings : List (String × String)

namespace Arguments

/-- `deployment`. -/
def deployment (a : Arguments) : Path := a.source ++ ["config", "manager", "deployment.yaml"]

/-- `webhook_manifest`. -/
def webhookManifest (a : Arguments) : Path := a.source ++ ["config", "webhook", "manifests.yaml"]

end Arguments

/-- `list(yaml.safe_load_all(path.read_text(encoding="utf-8")))`. -/
def documents (yaml : Yaml) (path : Path) (fs : FileSystem) : Except Exc (List Value) :=
  (readText fs path).bind yaml.load

/-- The documents of a file that must be there. -/
def lockedDocuments (yaml : Yaml) (path : Path) (refusal : String) (fs : FileSystem) :
    Except Exc (List Value) :=
  if fs.isFile path then documents yaml path fs else systemExit (refusal ++ path.text)

/-- `path.write_text(yaml.safe_dump_all(documents, sort_keys=False), encoding="utf-8")`. -/
def writeDocuments (yaml : Yaml) (path : Path) (documents : List Value) :
    Effect FileSystem Exc Unit :=
  Effect.change fun fs => fs.write path (yaml.dump documents).toUTF8

/-- `patch_provider`. -/
def patchProvider (yaml : Yaml) (a : Arguments) : Effect FileSystem Exc Unit := do
  let fs ← Effect.get
  let found ← Effect.lift (lockedDocuments yaml a.deployment
    "ERROR: locked provider source lacks manager deployment: " fs)
  let documents ← Effect.lift (Py.traverse (patchDocument a.image a.settings) found)
  let changed := found.any isDeployment
  let webhookFound ← Effect.lift (lockedDocuments yaml a.webhookManifest
    "ERROR: locked provider source lacks webhook manifest: " fs)
  let webhookDocuments ← Effect.lift (Py.traverse patchWebhook webhookFound)
  writeDocuments yaml a.webhookManifest webhookDocuments
  Effect.onlyIf (!changed)
    (Effect.throw ⟨.systemExit, "ERROR: locked provider source has no manager Deployment"⟩)
  writeDocuments yaml a.deployment documents

/-! ### What it is for -/

/-- The two files of a run. -/
def Arguments.files (a : Arguments) : List Path := [a.deployment, a.webhookManifest]

/-- Both files are as they were. -/
def Untouched (a : Arguments) (fs fs' : FileSystem) : Prop :=
  ∀ path ∈ a.files, fs'.node path = fs.node path

/-- One more run leaves the documents of both files as they are, with the SSH key once in each
deployment. -/
def Again (yaml : Yaml) (a : Arguments) (fs : FileSystem) : Prop :=
  ∃ fs', patchProvider yaml a fs = (.ok (), fs') ∧
    (∀ path ∈ a.files, documents yaml path fs' = documents yaml path fs) ∧
    ∃ found, documents yaml a.deployment fs' = .ok found ∧
      ∀ document ∈ found, isDeployment document = true → KeyOnce document

/-- The run raises and leaves both files as they were, or one more run changes nothing. -/
def Correct (yaml : Yaml) (a : Arguments) (fs : FileSystem) : Prop :=
  match patchProvider yaml a fs with
  | (.error _, fs') => Untouched a fs fs'
  | (.ok _, fs') => Again yaml a fs'

/-- The documents that the run writes are read back. -/
def ReadsBack (yaml : Yaml) (a : Arguments) (fs : FileSystem) : Prop :=
  ∀ found, (documents yaml a.deployment fs).bind
        (Py.traverse (patchDocument a.image a.settings)) = .ok found ∨
      (documents yaml a.webhookManifest fs).bind (Py.traverse patchWebhook) = .ok found →
    yaml.load (String.ofList (Py.universalNewlines (yaml.dump found).toList)) = .ok found

/-- Where no document is a deployment and the webhook manifest is accepted, that manifest stands
there as it is dumped, with nothing to edit. -/
def Sound (yaml : Yaml) (a : Arguments) (fs : FileSystem) : Prop :=
  ∀ found webhookFound, documents yaml a.deployment fs = .ok found →
    (∀ document ∈ found, isDeployment document = false) →
    documents yaml a.webhookManifest fs = .ok webhookFound →
    (∀ document ∈ webhookFound, Accepted document) →
    fs.fileAt a.webhookManifest = some (yaml.dump webhookFound).toUTF8 ∧
      ∀ document ∈ webhookFound, isConfiguration document = true → Prepared document

/-! ### How a run ends -/

section Run

variable {yaml : Yaml} {a : Arguments} {fs fs' : FileSystem} {path : Path}
  {found docs webhookFound webhookDocs : List Value}

/-- What a run has computed when it writes. -/
structure Plan (yaml : Yaml) (a : Arguments) (fs : FileSystem)
    (found docs webhookFound webhookDocs : List Value) : Prop where
  deployment : documents yaml a.deployment fs = .ok found
  patched : Py.traverse (patchDocument a.image a.settings) found = .ok docs
  webhookManifest : documents yaml a.webhookManifest fs = .ok webhookFound
  patchedWebhooks : Py.traverse patchWebhook webhookFound = .ok webhookDocs

theorem exists_file (h : documents yaml path fs = .ok found) :
    ∃ bytes, fs.fileAt path = some bytes := by
  obtain ⟨text, htext, -⟩ := bind_eq_ok.1 h
  obtain ⟨bytes, hbytes, -⟩ := bind_eq_ok.1 htext
  exact ⟨bytes, FileSystem.read_eq_ok.1 hbytes⟩

theorem lockedDocuments_eq_ok {refusal : String} :
    lockedDocuments yaml path refusal fs = .ok found ↔ documents yaml path fs = .ok found := by
  unfold lockedDocuments
  split_ifs with hfile
  · exact Iff.rfl
  · refine iff_of_false (by rintro ⟨⟩) fun h => hfile ?_
    exact FileSystem.isFile_iff.2 (exists_file h)

theorem deployment_ne_webhookManifest (a : Arguments) : a.deployment ≠ a.webhookManifest := by
  simp [Arguments.deployment, Arguments.webhookManifest]

theorem writeDocuments_of_file (yaml : Yaml) (docs : List Value) (hpath : path ≠ [])
    (h : ∃ bytes, fs.fileAt path = some bytes) :
    ∃ fs', writeDocuments yaml path docs fs = (.ok (), fs') ∧
      fs'.fileAt path = some (yaml.dump docs).toUTF8 ∧ ∀ q, q ≠ path → fs'.node q = fs.node q := by
  obtain ⟨bytes, hbytes⟩ := h
  obtain ⟨fs', hfs'⟩ := FileSystem.exists_write hpath hbytes (yaml.dump docs).toUTF8
  obtain ⟨hfile, hrest⟩ := FileSystem.write_eq_ok hfs'
  exact ⟨fs', Effect.change_of_ok hfs', FileSystem.fileAt_eq_some.2 hfile, hrest⟩

/-- **A run that gets to the files** writes the webhook manifest, and then the deployment if there is
one. -/
theorem patchProvider_of_plan (h : Plan yaml a fs found docs webhookFound webhookDocs) :
    ∃ fs₁, fs₁.fileAt a.webhookManifest = some (yaml.dump webhookDocs).toUTF8 ∧
      fs₁.node a.deployment = fs.node a.deployment ∧
      (found.any isDeployment = false ∧ (∃ e, patchProvider yaml a fs = (.error e, fs₁)) ∨
        found.any isDeployment = true ∧ ∃ fs₂, patchProvider yaml a fs = (.ok (), fs₂) ∧
          fs₂.fileAt a.deployment = some (yaml.dump docs).toUTF8 ∧
          fs₂.node a.webhookManifest = fs₁.node a.webhookManifest) := by
  have hpath : a.webhookManifest ≠ [] ∧ a.deployment ≠ [] := by
    simp [Arguments.deployment, Arguments.webhookManifest]
  obtain ⟨fs₁, hwrite, hfile, hrest⟩ := writeDocuments_of_file yaml webhookDocs hpath.1
    (exists_file h.webhookManifest)
  have hkeep := hrest a.deployment (deployment_ne_webhookManifest a)
  -- what is left of the run behind the first write
  have hstart : patchProvider yaml a fs = (Effect.onlyIf (!found.any isDeployment)
      (Effect.throw ⟨.systemExit, "ERROR: locked provider source has no manager Deployment"⟩) >>=
        fun _ => writeDocuments yaml a.deployment docs) fs₁ := by
    unfold patchProvider
    rw [Effect.bind_of_ok (Effect.get_eq_ok.2 ⟨rfl, rfl⟩),
      Effect.bind_of_ok (Effect.lift_eq_ok.2 ⟨lockedDocuments_eq_ok.2 h.deployment, rfl⟩),
      Effect.bind_of_ok (Effect.lift_eq_ok.2 ⟨h.patched, rfl⟩),
      Effect.bind_of_ok (Effect.lift_eq_ok.2 ⟨lockedDocuments_eq_ok.2 h.webhookManifest, rfl⟩),
      Effect.bind_of_ok (Effect.lift_eq_ok.2 ⟨h.patchedWebhooks, rfl⟩), Effect.bind_of_ok hwrite]
  refine ⟨fs₁, hfile, hkeep, ?_⟩
  cases hany : found.any isDeployment with
  | false =>
    rw [hany] at hstart
    exact .inl ⟨rfl, _, hstart⟩
  | true =>
    rw [hany] at hstart
    obtain ⟨bytes, hbytes⟩ := exists_file h.deployment
    obtain ⟨fs₂, hwrite₂, hfile₂, hrest₂⟩ := writeDocuments_of_file yaml docs hpath.2
      ⟨bytes, (FileSystem.fileAt_congr hkeep).trans hbytes⟩
    exact .inr ⟨rfl, fs₂, hstart.trans hwrite₂, hfile₂,
      hrest₂ _ (Ne.symm (deployment_ne_webhookManifest a))⟩

/-- **A run that does not get to the files** raises, and writes nothing. -/
theorem patchProvider_of_no_plan
    (h : ∀ found docs webhookFound webhookDocs, ¬Plan yaml a fs found docs webhookFound webhookDocs) :
    ∃ e, patchProvider yaml a fs = (.error e, fs) := by
  unfold patchProvider
  rw [Effect.bind_of_ok (Effect.get_eq_ok.2 ⟨rfl, rfl⟩)]
  cases hfound : lockedDocuments yaml a.deployment
    "ERROR: locked provider source lacks manager deployment: " fs with
  | error e => exact ⟨e, rfl⟩
  | ok found =>
    rw [Effect.bind_of_ok (Effect.lift_eq_ok.2 ⟨rfl, rfl⟩)]
    cases hdocs : Py.traverse (patchDocument a.image a.settings) found with
    | error e => exact ⟨e, rfl⟩
    | ok docs =>
      rw [Effect.bind_of_ok (Effect.lift_eq_ok.2 ⟨rfl, rfl⟩)]
      cases hwebhooks : lockedDocuments yaml a.webhookManifest
        "ERROR: locked provider source lacks webhook manifest: " fs with
      | error e => exact ⟨e, rfl⟩
      | ok webhookFound =>
        rw [Effect.bind_of_ok (Effect.lift_eq_ok.2 ⟨rfl, rfl⟩)]
        cases hwebhookDocs : Py.traverse patchWebhook webhookFound with
        | error e => exact ⟨e, rfl⟩
        | ok webhookDocs =>
          exact absurd ⟨lockedDocuments_eq_ok.1 hfound, hdocs, lockedDocuments_eq_ok.1 hwebhooks,
            hwebhookDocs⟩ (h found docs webhookFound webhookDocs)

end Run

/-! ### One more run -/

section Again

variable {yaml : Yaml} {a : Arguments} {fs fs' : FileSystem} {path : Path}
  {found docs webhookFound webhookDocs : List Value}

/-- Documents that have been written are read back. -/
theorem documents_of_fileAt (docs : List Value) (hfile : fs.fileAt path = some (yaml.dump docs).toUTF8)
    (hread : yaml.load (String.ofList (Py.universalNewlines (yaml.dump docs).toList)) = .ok docs) :
    documents yaml path fs = .ok docs := by
  have htext : FileSystem.textAt fs path = some (yaml.dump docs).toList := by
    rw [textAt_eq_some, String.ofList_toList]
    exact hfile
  rw [documents, FileSystem.readText_of_textAt htext]
  exact hread

/-- What a plan writes is read back. -/
theorem Plan.readsBack (h : Plan yaml a fs found docs webhookFound webhookDocs)
    (hread : ReadsBack yaml a fs) :
    (fs'.fileAt a.deployment = some (yaml.dump docs).toUTF8 →
        documents yaml a.deployment fs' = .ok docs) ∧
      (fs'.fileAt a.webhookManifest = some (yaml.dump webhookDocs).toUTF8 →
        documents yaml a.webhookManifest fs' = .ok webhookDocs) :=
  ⟨fun hfile => documents_of_fileAt docs hfile
      (hread docs (.inl (bind_eq_ok.2 ⟨found, h.deployment, h.patched⟩))),
    fun hfile => documents_of_fileAt webhookDocs hfile
      (hread webhookDocs (.inr (bind_eq_ok.2 ⟨webhookFound, h.webhookManifest, h.patchedWebhooks⟩)))⟩

/-- The documents of the deployment are edited once. -/
theorem Plan.edited (h : Plan yaml a fs found docs webhookFound webhookDocs) :
    docs.any isDeployment = found.any isDeployment ∧
      ∀ document ∈ docs, isDeployment document = true → KeyOnce document := by
  refine ⟨?_, fun document hdocument hkind => ?_⟩
  · have hall := Py.traverse_eq_ok.1 h.patched
    clear h
    induction hall with
    | nil => rfl
    | cons hxy _ ih => rw [List.any_cons, List.any_cons, isDeployment_patchDocument hxy, ih]
  · obtain ⟨x, -, hx⟩ := (Py.mem_traverse h.patched).1 hdocument
    exact keyOnce_of_patchDocument hx hkind

/-- **One more run** leaves the documents as they are. -/
theorem again_of_plan (h : Plan yaml a fs found docs webhookFound webhookDocs)
    (hread : ReadsBack yaml a fs) (hany : found.any isDeployment = true)
    (hdeployment : fs'.fileAt a.deployment = some (yaml.dump docs).toUTF8)
    (hwebhooks : fs'.fileAt a.webhookManifest = some (yaml.dump webhookDocs).toUTF8) :
    Again yaml a fs' := by
  have hdocs := (h.readsBack hread).1 hdeployment
  have hwebhookDocs := (h.readsBack hread).2 hwebhooks
  -- the documents that are found now are left alone
  have hplan : Plan yaml a fs' docs docs webhookDocs webhookDocs :=
    ⟨hdocs, Py.traverse_settles (patchDocument_settles a.image a.settings) _ _ h.patched, hwebhookDocs,
      Py.traverse_settles patchWebhook_settles _ _ h.patchedWebhooks⟩
  obtain ⟨fs₁, hfile₁, -, ⟨hnone, -⟩ | ⟨-, fs₂, hrun, hfile₂, hkeep⟩⟩ := patchProvider_of_plan hplan
  · cases (h.edited.1.trans hany).symm.trans hnone
  have hdocs₂ := (h.readsBack hread).1 hfile₂
  have hwebhookDocs₂ := (h.readsBack hread).2 ((FileSystem.fileAt_congr hkeep).trans hfile₁)
  refine ⟨fs₂, hrun, ?_, docs, hdocs₂, h.edited.2⟩
  simp only [Arguments.files, List.forall_mem_cons]
  exact ⟨hdocs₂.trans hdocs.symm, hwebhookDocs₂.trans hwebhookDocs.symm, by simp⟩

end Again

/-! ### When nothing is half done -/

section Correct

variable {yaml : Yaml} {a : Arguments} {fs : FileSystem}
  {found docs webhookFound webhookDocs : List Value}

/-- Documents without a deployment are left alone. -/
theorem traverse_patchDocument_of_none (h : ∀ document ∈ found, isDeployment document = false) :
    Py.traverse (patchDocument a.image a.settings) found = .ok found := by
  refine Py.traverse_eq_ok.2 (List.forall₂_same.2 fun document hdocument => ?_)
  rw [patchDocument, h document hdocument]
  rfl

/-- The webhook documents that are left alone. -/
theorem Plan.webhookDocs_eq_iff (h : Plan yaml a fs found docs webhookFound webhookDocs) :
    webhookDocs = webhookFound ↔
      ∀ document ∈ webhookFound, isConfiguration document = true → Prepared document := by
  have haccepted : ∀ document ∈ webhookFound, Accepted document := fun document hdocument =>
    exists_patchWebhook.1 (Py.traverse_isOk.1 ⟨webhookDocs, h.patchedWebhooks⟩ document hdocument)
  have hself : Py.traverse patchWebhook webhookFound = .ok webhookFound ↔
      ∀ document ∈ webhookFound, isConfiguration document = true → Prepared document := by
    rw [Py.traverse_eq_ok, List.forall₂_same]
    exact forall₂_congr fun document hdocument => patchWebhook_eq_self (haccepted document hdocument)
  rw [← hself, h.patchedWebhooks, Except.ok.injEq]

/-- **When a run without a deployment leaves the webhook manifest.** -/
theorem Plan.manifest_iff (h : Plan yaml a fs found docs webhookFound webhookDocs)
    (hread : ReadsBack yaml a fs) :
    fs.fileAt a.webhookManifest = some (yaml.dump webhookDocs).toUTF8 ↔
      fs.fileAt a.webhookManifest = some (yaml.dump webhookFound).toUTF8 ∧
        ∀ document ∈ webhookFound, isConfiguration document = true → Prepared document := by
  rw [← h.webhookDocs_eq_iff]
  constructor
  · intro hfile
    have hback := (h.readsBack hread).2 hfile
    obtain rfl : webhookDocs = webhookFound := Except.ok.inj (hback.symm.trans h.webhookManifest)
    exact ⟨hfile, rfl⟩
  · rintro ⟨hfile, heq⟩
    rw [heq]
    exact hfile

/-- A run without a deployment. -/
theorem Plan.correct_iff (h : Plan yaml a fs found docs webhookFound webhookDocs)
    (hany : found.any isDeployment = false) :
    Correct yaml a fs ↔ fs.fileAt a.webhookManifest = some (yaml.dump webhookDocs).toUTF8 := by
  obtain ⟨fs₁, hfile, hkeep, ⟨-, e, hrun⟩ | ⟨hsome, -⟩⟩ := patchProvider_of_plan h
  · rw [Correct, hrun]
    simp only [Untouched, Arguments.files, List.forall_mem_cons]
    have hfile₁ := FileSystem.fileAt_eq_some.1 hfile
    constructor
    · rintro ⟨-, hmanifest, -⟩
      rw [FileSystem.fileAt_eq_some, ← hmanifest, hfile₁]
    · intro hbefore
      exact ⟨hkeep, hfile₁.trans (FileSystem.fileAt_eq_some.1 hbefore).symm, by simp⟩
  · cases hany.symm.trans hsome

/-- **When a run is all or nothing**: it finds a deployment, or stops before it writes, or the webhook
manifest already stands there as it would be written. -/
theorem patchProvider_iff (hread : ReadsBack yaml a fs) : Correct yaml a fs ↔ Sound yaml a fs := by
  by_cases hplan : ∃ found docs webhookFound webhookDocs,
      Plan yaml a fs found docs webhookFound webhookDocs
  · obtain ⟨found, docs, webhookFound, webhookDocs, h⟩ := hplan
    cases hany : found.any isDeployment with
    | false =>
      rw [h.correct_iff hany, h.manifest_iff hread]
      constructor
      · rintro hmanifest found' webhookFound' - - hwebhooks -
        cases h.webhookManifest.symm.trans hwebhooks
        exact hmanifest
      · intro hsound
        refine hsound found webhookFound h.deployment (fun document hdocument => ?_) h.webhookManifest
          fun document hdocument => ?_
        · exact Bool.eq_false_iff.2 (List.any_eq_false.1 hany document hdocument)
        · exact exists_patchWebhook.1
            (Py.traverse_isOk.1 ⟨webhookDocs, h.patchedWebhooks⟩ document hdocument)
    | true =>
      refine iff_of_true ?_ fun found' webhookFound' hfound hnone => ?_
      · obtain ⟨fs₁, hfile, -, ⟨hnone, -⟩ | ⟨-, fs₂, hrun, hfile₂, hkeep⟩⟩ := patchProvider_of_plan h
        · cases hnone.symm.trans hany
        rw [Correct, hrun]
        exact again_of_plan h hread hany hfile₂ ((FileSystem.fileAt_congr hkeep).trans hfile)
      · cases h.deployment.symm.trans hfound
        obtain ⟨document, hdocument, hkind⟩ := List.any_eq_true.1 hany
        cases (hnone document hdocument).symm.trans hkind
  · obtain ⟨e, hrun⟩ := patchProvider_of_no_plan fun found docs webhookFound webhookDocs h =>
      hplan ⟨found, docs, webhookFound, webhookDocs, h⟩
    refine iff_of_true ?_ fun found webhookFound hfound hnone hwebhooks haccepted => ?_
    · rw [Correct, hrun]
      exact fun path _ => rfl
    · obtain ⟨webhookDocs, hwebhookDocs⟩ := Py.traverse_isOk.2 fun document hdocument =>
        exists_patchWebhook.2 (haccepted document hdocument)
      exact absurd ⟨found, found, webhookFound, webhookDocs, hfound,
        traverse_patchDocument_of_none hnone, hwebhooks, hwebhookDocs⟩ hplan

/-! ### Two sources -/

/-- A configuration without webhooks. -/
def configuration : Value := literal [("kind", .str "ValidatingWebhookConfiguration")]

/-- The configuration, with the CA. -/
def injected : Value :=
  literal [("kind", .str "ValidatingWebhookConfiguration"),
    ("metadata", literal [("annotations", literal [(injectKey, injectValue)])])]

/-- A run in the root of a tree. -/
def smallArguments : Arguments where
  source := []
  image := "manager:v1"
  settings := [("agent_address", "192.0.2.1"), ("server_name", "agent")]

/-- A manager deployment with the volume of the CA, and without the key. -/
def managerDocument : Value :=
  literal [("kind", .str "Deployment"), ("spec", literal [("template", literal [("spec", literal [
    ("containers", .list [entry "manager" [("image", .str "manager:latest"),
      ("args", .list (["--agent-address=localhost:9444", "--agent-server-name=localhost",
        "--agent-ca=/ca.crt", "--agent-client-cert-dir=/certs"].map .str))]]),
    ("volumes", .list [entry "agent-ca" [("secret", literal [("secretName", .str "agent-ca")])]])])])])]

/-- The manager deployment behind a run. -/
def patchedManager : Value :=
  match patchDocument smallArguments.image smallArguments.settings managerDocument with
  | .ok v => v
  | .error _ => .none

theorem patchDocument_manager :
    patchDocument smallArguments.image smallArguments.settings managerDocument = .ok patchedManager := by
  have hok : Py.okAnd (patchDocument smallArguments.image smallArguments.settings managerDocument)
      (fun _ => true) = true := by decide +kernel
  obtain ⟨v, hv, -⟩ := Py.okAnd_eq_true.1 hok
  simp only [patchedManager, hv]

/-- The files of the sources, before and behind a run. -/
def knownFiles : List (List Value) :=
  [[], [configuration], [injected], [managerDocument], [patchedManager]]

/-- YAML in block style, as far as these files go. -/
def smallYaml : Yaml where
  load text :=
    match knownFiles.findIdx? fun documents => Py.blockTexts documents == text.toList with
    | some i => .ok (knownFiles.getD i [])
    | none => Py.valueError "no such text"
  dump documents := String.ofList (Py.blockTexts documents)

theorem smallYaml_readsBack : ∀ i < 5, smallYaml.load (String.ofList (Py.universalNewlines
    (smallYaml.dump (knownFiles.getD i [])).toList)) = .ok (knownFiles.getD i []) := by
  have hindex : ∀ i < 5, (knownFiles.findIdx? fun documents => Py.blockTexts documents ==
      Py.universalNewlines (Py.blockTexts (knownFiles.getD i []))) = some i := by
    decide +kernel
  intro i hi
  simp only [smallYaml, String.toList_ofList, hindex i hi]

/-- A source with these documents in its two files. -/
def sourceWith (deployments webhooks : List Value) : FileSystem :=
  .ofLists [[], ["config"], ["config", "manager"], ["config", "webhook"]]
    [(smallArguments.deployment, (smallYaml.dump deployments).toUTF8),
      (smallArguments.webhookManifest, (smallYaml.dump webhooks).toUTF8)] (by
    simp only [List.map_cons, List.map_nil]
    decide)

theorem fileAt_sourceWith (deployments webhooks : List Value) :
    (sourceWith deployments webhooks).fileAt smallArguments.deployment =
        some (smallYaml.dump deployments).toUTF8 ∧
      (sourceWith deployments webhooks).fileAt smallArguments.webhookManifest =
        some (smallYaml.dump webhooks).toUTF8 := ⟨rfl, rfl⟩

/-- The files of a source are read as their documents. -/
theorem documents_sourceWith {i j : ℕ} (hi : i < 5) (hj : j < 5) :
    documents smallYaml smallArguments.deployment
        (sourceWith (knownFiles.getD i []) (knownFiles.getD j [])) = .ok (knownFiles.getD i []) ∧
      documents smallYaml smallArguments.webhookManifest
        (sourceWith (knownFiles.getD i []) (knownFiles.getD j [])) = .ok (knownFiles.getD j []) :=
  ⟨documents_of_fileAt _ (fileAt_sourceWith _ _).1 (smallYaml_readsBack i hi),
    documents_of_fileAt _ (fileAt_sourceWith _ _).2 (smallYaml_readsBack j hj)⟩

/-- The source without a deployment. -/
abbrev emptySource : FileSystem := sourceWith [] [configuration]

/-- The source with the manager. -/
abbrev managerSource : FileSystem := sourceWith [managerDocument] [configuration]

theorem plan_emptyDeployment :
    Plan smallYaml smallArguments emptySource [] [] [configuration] [injected] := by
  obtain ⟨hdeployment, hwebhooks⟩ := documents_sourceWith (i := 0) (j := 1) (by decide) (by decide)
  exact ⟨hdeployment, rfl, hwebhooks, rfl⟩

theorem plan_manager : Plan smallYaml smallArguments managerSource [managerDocument] [patchedManager]
    [configuration] [injected] := by
  obtain ⟨hdeployment, hwebhooks⟩ := documents_sourceWith (i := 3) (j := 1) (by decide) (by decide)
  refine ⟨hdeployment, ?_, hwebhooks, rfl⟩
  rw [Py.traverse, patchDocument_manager]
  rfl

/-- What a plan writes into known files is read back. -/
theorem Plan.readsBack_of_known {fs : FileSystem} {found docs webhookFound webhookDocs : List Value}
    (h : Plan smallYaml a fs found docs webhookFound webhookDocs) {i j : ℕ} (hi : i < 5) (hj : j < 5)
    (hdocs : knownFiles.getD i [] = docs) (hwebhooks : knownFiles.getD j [] = webhookDocs) :
    ReadsBack smallYaml a fs := by
  rintro written (hwritten | hwritten)
  · obtain rfl := Except.ok.inj ((bind_eq_ok.2 ⟨found, h.deployment, h.patched⟩).symm.trans hwritten)
    rw [← hdocs]
    exact smallYaml_readsBack i hi
  · obtain rfl := Except.ok.inj
      ((bind_eq_ok.2 ⟨webhookFound, h.webhookManifest, h.patchedWebhooks⟩).symm.trans hwritten)
    rw [← hwebhooks]
    exact smallYaml_readsBack j hj

theorem readsBack_emptyDeployment : ReadsBack smallYaml smallArguments emptySource :=
  plan_emptyDeployment.readsBack_of_known (i := 0) (j := 2) (by decide) (by decide) rfl rfl

theorem readsBack_manager : ReadsBack smallYaml smallArguments managerSource :=
  plan_manager.readsBack_of_known (i := 4) (j := 2) (by decide) (by decide) rfl rfl

/-- The webhook manifest is written, and then the run raises. -/
theorem emptyDeployment_rewritten : ¬∀ yaml a fs, ReadsBack yaml a fs → Correct yaml a fs := by
  intro hall
  have hfile := (plan_emptyDeployment.correct_iff rfl).1 (hall _ _ _ readsBack_emptyDeployment)
  have hne : (smallYaml.dump [configuration]).toUTF8 ≠ (smallYaml.dump [injected]).toUTF8 := by
    decide +kernel
  exact hne (Option.some.inj ((fileAt_sourceWith _ _).2.symm.trans hfile))

/-- The source without a deployment is left half edited; the one with the manager is edited once. -/
theorem patchProvider_iff_sources :
    (Correct smallYaml smallArguments emptySource ↔
      Sound smallYaml smallArguments emptySource) ∧
    Correct smallYaml smallArguments managerSource := by
  have hsound : Sound smallYaml smallArguments managerSource := by
    intro found webhookFound hfound hnone
    cases plan_manager.deployment.symm.trans hfound
    cases hnone managerDocument List.mem_cons_self
  constructor
  · exact patchProvider_iff readsBack_emptyDeployment
  · rw [patchProvider_iff readsBack_manager]
    exact hsound

end Correct

end Provider

end Management
