import K8Labs.Artifacts.Lock
import Mathlib.Data.List.Infix

/-!
# The inventories of the artifact cache

The first half of `scripts/cache.py`: what the cache reads off a lock.  `inventory` and
`guestUpgradeInventory` list the two artifact groups, `kubernetesUpgradeInventory` the artifacts that
the stages of the upgrade matrix refer to, and `ociInventory` the OCI images.

The three artifact inventories succeed on every lock that `loadLock` accepts.  For the images the
two validators disagree: `load_lock` looks at the reference and the platform only, and its pattern
allows a final newline and an empty repository (`inventories_isOk_iff`).  The upgrade matrix of an
accepted lock walks the Kubernetes minors one by one up to the target, and its inventory is what
the stages refer to, each artifact once (`upgradeMatrix_inventory`).
-/

namespace Artifacts

open Py (Exc Value Items valueError typeError)

/-! ### Fields -/

/-- `str.lower` of a string of hexadecimal digits. -/
def lower (s : String) : String := String.ofList (s.toList.map Char.toLower)

/-- `_is_sha256`. -/
def isSha256 (s : String) : Bool :=
  decide (s.toList.length = 64) && s.toList.all fun c => isLowerHex c.toLower

/-- `_safe_cache_path`. -/
def safeCachePath (value : Value) (place : String) : Except Exc String :=
  match value.asStr with
  | none => valueError (place ++ " must be a non-empty relative path")
  | some path =>
    if path = "" then valueError (place ++ " must be a non-empty relative path")
    else if Py.isAbsolute path ∨ ".." ∈ Py.pathParts path then
      valueError (place ++ " must stay inside the cache")
    else .ok path

/-- The text before and after the last occurrence of a separator. -/
def rpartition (separator : List Char) : List Char → Option (List Char × List Char)
  | [] => none
  | c :: cs =>
    match rpartition separator cs with
    | some (before, after) => some (c :: before, after)
    | none => (separator.isPrefixOf? (c :: cs)).map fun after => ([], after)

/-! ### Artifacts -/

section Urls

variable (urlparse : UrlParse)

/-- One entry of `_artifact_inventory`. -/
def artifactEntry (place : String) (entry : Value) : Except Exc Artifact :=
  match entry.asDict with
  | none => typeError (place ++ " must be a mapping")
  | some artifact =>
    (safeCachePath (artifact.get "cache_path") (place ++ ".cache_path")).bind fun path =>
    match (artifact.get "id").asStr with
    | none => valueError (place ++ ".id must be a non-empty string")
    | some id =>
      if id = "" then valueError (place ++ ".id must be a non-empty string")
      else
        match (artifact.get "sha256").asStr with
        | none => valueError (place ++ ".sha256 must be a hexadecimal SHA-256 digest")
        | some digest =>
          if ¬ isSha256 digest then
            valueError (place ++ ".sha256 must be a hexadecimal SHA-256 digest")
          else
            match (artifact.get "url").asStr with
            | none => valueError (place ++ ".url must use HTTPS")
            | some url =>
              (urlparse url).bind fun parsed =>
                if parsed.1 ≠ "https" then valueError (place ++ ".url must use HTTPS")
                else .ok ⟨id, path, lower digest, url⟩

/-- `_artifact_inventory`. -/
def artifactInventory (lock : Items) (group : String) : Except Exc (List Artifact) :=
  match ((lock.lookup group).getD (.list [])).asList with
  | none => typeError ("lock." ++ group ++ " must be a list")
  | some entries =>
    Py.traverse (fun entry => artifactEntry urlparse (location group entry.2) entry.1) entries.zipIdx

/-- `inventory`. -/
def inventory (lock : Items) : Except Exc (List Artifact) :=
  artifactInventory urlparse lock "artifacts"

/-- `guest_upgrade_inventory`. -/
def guestUpgradeInventory (lock : Items) : Except Exc (List Artifact) :=
  artifactInventory urlparse lock "guest_upgrade_artifacts"

/-- The fields through which a stage refers to artifacts. -/
def referenceFields : List String := ["kubelet_artifact", "control_plane_artifact", "cri_o_artifact"]

/-- The dictionary of artifacts by id; of two entries with one id the later stays. -/
def byId (entries : List Value) (id : String) : Option Items :=
  (entries.reverse.findSome? fun entry =>
    entry.asDict.bind fun artifact =>
      if (artifact.get "id").asStr = some id then some artifact else none)

/-- The artifacts selected so far, with their ids, and one more reference. -/
def selectReference (entries : List Value) (place : String) (stage : Items)
    (selected : List (String × Items)) (field : String) : Except Exc (List (String × Items)) :=
  match (stage.get field).asStr.bind fun id => (byId entries id).map fun artifact => (id, artifact) with
  | none => valueError (place ++ "." ++ field ++ " must reference a locked artifact")
  | some (id, artifact) =>
    if id ∈ selected.map Prod.fst then .ok selected else .ok (selected ++ [(id, artifact)])

/-- The references of one stage. -/
def selectStage (entries : List Value) (selected : List (String × Items)) (entry : Value × ℕ) :
    Except Exc (List (String × Items)) :=
  let place := location "kubernetes_upgrade_matrix" entry.2
  match entry.1.asDict with
  | none => typeError (place ++ " must be a mapping")
  | some stage => Py.fold (selectReference entries place stage) selected referenceFields

/-- `kubernetes_upgrade_inventory`. -/
def kubernetesUpgradeInventory (lock : Items) : Except Exc (List Artifact) :=
  (inventory urlparse lock).bind fun _ =>
  (guestUpgradeInventory urlparse lock).bind fun _ =>
  match ((lock.lookup "artifacts").getD (.list [])).asList,
      ((lock.lookup "guest_upgrade_artifacts").getD (.list [])).asList with
  | some normal, some guests =>
    match (lock.get "kubernetes_upgrade_matrix").asList with
    | none | some [] => valueError "lock.kubernetes_upgrade_matrix must be a non-empty list"
    | some (first :: rest) =>
      (Py.fold (selectStage (normal ++ guests)) [] (first :: rest).zipIdx).bind fun selected =>
        artifactInventory urlparse
          [(.str "matrix_artifacts", .list (selected.map fun s => .dict s.2))] "matrix_artifacts"
  | _, _ => typeError "lock artifact groups must be lists"

end Urls

/-! ### OCI images -/

/-- An entry of the image inventory. -/
structure OciImage where
  id : String
  cachePath : String
  reference : String
  manifestDigest : String
  platform : String
  deriving DecidableEq

/-- The repository of a reference without a tag after its last slash. -/
def untagged (repository : List Char) : List Char :=
  let withoutTag := fun name => ((rpartition [':'] name).map Prod.fst).getD name
  match rpartition ['/'] repository with
  | some (path, name) => path ++ '/' :: withoutTag name
  | none => withoutTag repository

/-- One entry of `oci_inventory`. -/
def ociEntry (place : String) (entry : Value) : Except Exc OciImage :=
  match entry.asDict with
  | none => typeError (place ++ " must be a mapping")
  | some image =>
    (safeCachePath (image.get "cache_path") (place ++ ".cache_path")).bind fun path =>
    match (image.get "id").asStr with
    | none => valueError (place ++ ".id must be a non-empty string")
    | some id =>
      if id = "" then valueError (place ++ ".id must be a non-empty string")
      else
        match (image.get "reference").asStr.bind fun r => rpartition digestMark.toList r.toList with
        | none => valueError (place ++ ".reference must be pinned by a sha256 digest")
        | some (repository, digest) =>
          if repository = [] ∨ ¬ isSha256 (String.ofList digest) then
            valueError (place ++ ".reference must end with a full sha256 digest")
          else
            match (image.get "platform").asStr with
            | none => valueError (place ++ ".platform must be OS/architecture")
            | some platform =>
              if platform.toList.count '/' ≠ 1 then
                valueError (place ++ ".platform must be OS/architecture")
              else
                let digest := lower (String.ofList digest)
                .ok
                  { id := id
                    cachePath := path
                    reference := String.ofList (untagged repository) ++ digestMark ++ digest
                    manifestDigest := "sha256:" ++ digest
                    platform := platform }

/-- `oci_inventory`. -/
def ociInventory (lock : Items) : Except Exc (List OciImage) :=
  match ((lock.lookup "oci_images").getD (.list [])).asList with
  | none => typeError "lock.oci_images must be a list"
  | some entries =>
    Py.traverse (fun entry => ociEntry (location "oci_images" entry.2) entry.1) entries.zipIdx

/-! ### Artifact inventories of an accepted lock -/

theorem toLower_of_isLowerHex {c : Char} (h : isLowerHex c = true) : c.toLower = c := by
  refine dif_neg ?_
  rintro ⟨hge, hle⟩
  have h₁ : 65 ≤ c.val.toNat := UInt32.le_iff_toNat_le.1 hge
  have h₂ : c.val.toNat ≤ 90 := UInt32.le_iff_toNat_le.1 hle
  simp only [isLowerHex, Char.isDigit, Bool.or_eq_true, Bool.and_eq_true, decide_eq_true_eq] at h
  rcases h with ⟨-, h⟩ | ⟨h, -⟩
  · have h₃ : c.val.toNat ≤ 57 := UInt32.le_iff_toNat_le.1 h
    omega
  · have h₃ : 97 ≤ c.val.toNat := UInt32.le_iff_toNat_le.1 h
    omega

section Accepted

variable {urlparse : UrlParse}

theorem isSha256_of_isHex {s : String} (h : isHex 64 s = true) : isSha256 s = true ∧ lower s = s := by
  simp only [isHex, Bool.and_eq_true, decide_eq_true_eq, List.all_eq_true] at h
  constructor
  · simp only [isSha256, Bool.and_eq_true, decide_eq_true_eq, List.all_eq_true]
    refine ⟨h.1, fun c hc => ?_⟩
    rw [toLower_of_isLowerHex (h.2 c hc)]
    exact h.2 c hc
  · have hmap : s.toList.map Char.toLower = s.toList :=
      (List.map_congr_left fun c hc => toLower_of_isLowerHex (h.2 c hc)).trans (List.map_id' _)
    rw [lower, hmap, String.ofList_toList]

theorem ne_empty_of_strip {s : String} (h : Py.strip s ≠ "") : s ≠ "" := by
  rintro rfl
  exact h (by decide)

/-- A valid entry is listed with its four strings. -/
theorem artifactEntry_of_valid {items : Items} {a : Artifact} (h : ValidArtifact urlparse items a)
    (place : String) : artifactEntry urlparse place (.dict items) = .ok a := by
  obtain ⟨netloc, hurl⟩ := h.url_https
  obtain ⟨hsha, hlower⟩ := isSha256_of_isHex h.sha256_hex
  have hpath : safeCachePath (items.get "cache_path") (place ++ ".cache_path") = .ok a.cachePath := by
    have hcond : ¬ (Py.isAbsolute a.cachePath = true ∨ ".." ∈ Py.pathParts a.cachePath) := by
      simp [h.path_relative, h.path_inside]
    simp only [safeCachePath, h.path_eq, Value.asStr, ne_empty_of_strip h.path_strip, if_false,
      if_neg hcond]
  simp only [artifactEntry, Value.asDict, hpath, Except.bind, h.id_eq, Value.asStr,
    ne_empty_of_strip h.id_strip, if_false, h.sha256_eq, hsha, not_true_eq_false, h.url_eq, hurl,
    ne_eq, hlower]

theorem traverse_zipIdx_dict {found : List (Items × Artifact)} {group : String}
    (h : ∀ f ∈ found, ValidArtifact urlparse f.1 f.2) (n : ℕ) :
    Py.traverse (fun entry => artifactEntry urlparse (location group entry.2) entry.1)
      ((found.map fun f => Value.dict f.1).zipIdx n) = .ok (found.map Prod.snd) := by
  induction found generalizing n with
  | nil => rfl
  | cons f found ih =>
    rw [List.map_cons, List.zipIdx_cons, Py.traverse,
      artifactEntry_of_valid (h f List.mem_cons_self)]
    simp only [Except.bind, ih (fun f' hf' => h f' (List.mem_cons_of_mem _ hf'))]
    rfl

theorem lookup_getD_of_get {lock : Items} {key : String} {xs : List Value}
    (h : lock.get key = .list xs) : (lock.lookup key).getD (.list []) = .list xs := by
  rw [Py.Items.get] at h
  cases hl : lock.lookup key with
  | none => rw [hl] at h; cases h
  | some v => rw [hl] at h; exact h

variable {lock : Items} {normal guests : List (Items × Artifact)}

theorem inventory_eq (h : ValidGroups urlparse lock normal guests) :
    inventory urlparse lock = .ok (normal.map Prod.snd) := by
  rw [inventory, artifactInventory, lookup_getD_of_get h.normal_eq]
  exact traverse_zipIdx_dict (fun f hf => h.valid f (List.mem_append_left _ hf)) 0

theorem guestUpgradeInventory_eq (h : ValidGroups urlparse lock normal guests) :
    guestUpgradeInventory urlparse lock = .ok (guests.map Prod.snd) := by
  rw [guestUpgradeInventory, artifactInventory, h.guests_eq]
  exact traverse_zipIdx_dict (fun f hf => h.valid f (List.mem_append_right _ hf)) 0

/-! ### The walk through the upgrade matrix -/

/-- The ids a stage refers to. -/
def stageReferences (stage : Items) : List String :=
  referenceFields.filterMap fun field => (stage.get field).asStr

/-- Appending a reference that was not selected before. -/
def insertNew (resolve : String → Items) (selected : List (String × Items)) (id : String) :
    List (String × Items) :=
  if id ∈ selected.map Prod.fst then selected else selected ++ [(id, resolve id)]

/-- The walk selects each reference at its first occurrence. -/
theorem foldl_insertNew (resolve : String → Items) (refs : List String)
    (selected : List (String × Items)) :
    refs.foldl (insertNew resolve) selected = selected ++
      ((refs.filter fun id => id ∉ selected.map Prod.fst).eraseDups).map
        fun id => (id, resolve id) := by
  induction refs generalizing selected with
  | nil => simp
  | cons id refs ih =>
    rw [List.foldl_cons, ih, insertNew]
    by_cases hid : id ∈ selected.map Prod.fst
    · rw [if_pos hid, List.filter_cons_of_neg (by simpa using hid)]
    · rw [if_neg hid, List.filter_cons_of_pos (by simpa using hid), List.eraseDups_cons,
        List.map_cons, List.append_assoc, List.singleton_append, List.filter_filter]
      congr 4
      refine List.filter_congr fun id' _ => ?_
      simp only [List.map_append, List.map_singleton, List.mem_append, List.mem_singleton]
      by_cases heq : id' = id <;> simp [heq]

theorem nodup_insertNew {resolve : String → Items} {refs : List String}
    {selected : List (String × Items)} (h : (selected.map Prod.fst).Nodup) :
    ((refs.foldl (insertNew resolve) selected).map Prod.fst).Nodup := by
  induction refs generalizing selected with
  | nil => exact h
  | cons id refs ih =>
    refine ih ?_
    rw [insertNew]
    split_ifs with hid
    · exact h
    · rw [List.map_append, List.map_singleton]
      exact List.nodup_append.2 ⟨h, List.nodup_singleton _, by
        intro a ha b hb
        obtain rfl := List.mem_singleton.1 hb
        rintro rfl
        exact hid ha⟩

section Walk

variable {entries : List Value} {resolve : String → Items}

/-- A stage whose references are all found. -/
def Resolved (entries : List Value) (resolve : String → Items) (stage : Items) : Prop :=
  ∀ field ∈ referenceFields, ∃ id, stage.get field = .str id ∧ byId entries id = some (resolve id)

theorem fold_selectReference {place : String} {stage : Items} {fields : List String}
    (h : ∀ field ∈ fields, ∃ id, stage.get field = .str id ∧ byId entries id = some (resolve id))
    (selected : List (String × Items)) :
    Py.fold (selectReference entries place stage) selected fields =
      .ok ((fields.filterMap fun field => (stage.get field).asStr).foldl (insertNew resolve)
        selected) := by
  induction fields generalizing selected with
  | nil => rfl
  | cons field fields ih =>
    obtain ⟨id, hid, hfound⟩ := h field List.mem_cons_self
    have hstep : selectReference entries place stage selected field =
        .ok (insertNew resolve selected id) := by
      simp only [selectReference, hid, Value.asStr, Option.bind_some, hfound, Option.map_some,
        insertNew]
      split_ifs <;> rfl
    rw [Py.fold, hstep, List.filterMap_cons_some (by rw [hid]; rfl), List.foldl_cons]
    exact ih (fun f hf => h f (List.mem_cons_of_mem _ hf)) _

theorem fold_selectStage {stages : List Items} (h : ∀ stage ∈ stages, Resolved entries resolve stage)
    (n : ℕ) (selected : List (String × Items)) :
    Py.fold (selectStage entries) selected ((stages.map Value.dict).zipIdx n) =
      .ok ((stages.flatMap stageReferences).foldl (insertNew resolve) selected) := by
  induction stages generalizing n selected with
  | nil => rfl
  | cons stage stages ih =>
    rw [List.map_cons, List.zipIdx_cons, Py.fold, selectStage, List.flatMap_cons,
      List.foldl_append]
    simp only [Value.asDict]
    rw [fold_selectReference (h stage List.mem_cons_self)]
    exact ih (fun s hs => h s (List.mem_cons_of_mem _ hs)) _ _

end Walk

/-- With distinct ids, the artifact found by id is the one the validator looked up. -/
theorem byId_of_lookup (h : ValidGroups urlparse lock normal guests) {id : String} {items : Items}
    (hl : List.lookup id ((normal ++ guests).map fun f => (f.2.id, f.1)) = some items) :
    byId ((normal ++ guests).map fun f => .dict f.1) id = some items ∧
      ∃ a, (items, a) ∈ normal ++ guests ∧ a.id = id := by
  have hmem : (id, items) ∈ (normal ++ guests).map fun f => (f.2.id, f.1) := by
    obtain ⟨l₁, l₂, hsplit, -⟩ := List.lookup_eq_some_iff.1 hl
    rw [hsplit]
    simp
  obtain ⟨f, hf, heq⟩ := List.mem_map.1 hmem
  obtain ⟨rfl, rfl⟩ := Prod.mk.inj heq
  refine ⟨?_, f.2, hf, rfl⟩
  have hget : ∀ g ∈ normal ++ guests, (Value.dict g.1).asDict.bind (fun artifact =>
      if (artifact.get "id").asStr = some f.2.id then some artifact else none) =
        if g.2.id = f.2.id then some g.1 else none := by
    intro g hg
    simp [Value.asDict, (h.valid g hg).id_eq, Value.asStr]
  cases hb : byId ((normal ++ guests).map fun f => .dict f.1) f.2.id with
  | none =>
    rw [byId, List.findSome?_eq_none_iff] at hb
    have := hb (.dict f.1) (List.mem_reverse.2 (List.mem_map.2 ⟨f, hf, rfl⟩))
    rw [hget f hf, if_pos rfl] at this
    cases this
  | some items =>
    obtain ⟨entry, hentry, hsome⟩ := List.exists_of_findSome?_eq_some hb
    obtain ⟨g, hg, rfl⟩ := List.mem_map.1 (List.mem_reverse.1 hentry)
    rw [hget g hg] at hsome
    split_ifs at hsome with hid
    cases hsome
    rw [List.inj_on_of_nodup_map h.ids_nodup hg hf hid]

theorem mem_stageReferences {artifacts : List (String × Items)} {stage : Items} {minor : ℕ}
    (h : ValidStage artifacts stage minor) {field : String} (hfield : field ∈ referenceFields) :
    ∃ id items, stage.get field = .str id ∧ List.lookup id artifacts = some items := by
  have hmem : ∃ component, (field, component) ∈ expectedComponents := by
    simp only [referenceFields, List.mem_cons, List.not_mem_nil, or_false] at hfield
    rcases hfield with rfl | rfl | rfl
    · exact ⟨"kubelet", by simp [expectedComponents]⟩
    · exact ⟨"kubernetes-control-plane", by simp [expectedComponents]⟩
    · exact ⟨"cri-o", by simp [expectedComponents]⟩
  obtain ⟨component, hexp⟩ := hmem
  obtain ⟨_, _, _, _, _, _, hrefs⟩ := h.versions
  obtain ⟨id, items, hid, hlookup, -, -⟩ := hrefs _ hexp
  exact ⟨id, items, hid, hlookup⟩

/-- The inventory of the upgrade matrix. -/
theorem kubernetesUpgradeInventory_eq (hg : ValidGroups urlparse lock normal guests)
    {stages : List Items} {minors : List ℕ} {target : String}
    (hm : ValidMatrix lock ((normal ++ guests).map fun f => (f.2.id, f.1)) stages minors target) :
    ∃ found : List (Items × Artifact), (∀ f ∈ found, f ∈ normal ++ guests) ∧
      kubernetesUpgradeInventory urlparse lock = .ok (found.map Prod.snd) ∧
      found.map (·.2.id) = (stages.flatMap stageReferences).eraseDups ∧
      (found.map (·.2.id)).Nodup := by
  set artifacts := (normal ++ guests).map fun f => (f.2.id, f.1) with hartifacts
  set refs := stages.flatMap stageReferences with hrefs
  let resolve : String → Items := fun id => (List.lookup id artifacts).getD []
  have hstage : ∀ stage ∈ stages, ∃ minor, ValidStage artifacts stage minor := by
    intro stage hs
    obtain ⟨n, hn, rfl⟩ := List.mem_iff_getElem.1 hs
    exact ⟨_, hm.stages_valid.get hn (hm.stages_valid.length_eq ▸ hn)⟩
  have hresolved : ∀ stage ∈ stages,
      Resolved ((normal ++ guests).map fun f => .dict f.1) resolve stage := by
    intro stage hs field hfield
    obtain ⟨minor, hvalid⟩ := hstage stage hs
    obtain ⟨id, items, hid, hlookup⟩ := mem_stageReferences hvalid hfield
    refine ⟨id, hid, ?_⟩
    rw [(byId_of_lookup hg hlookup).1]
    simp [resolve, hlookup]
  -- every selected entry is one of the lock's artifacts, under its own id
  have hselected : ∀ p ∈ refs.foldl (insertNew resolve) [],
      ∃ f : Items × Artifact, p = (f.2.id, f.1) ∧ f ∈ normal ++ guests := by
    intro p hp
    rw [foldl_insertNew, List.nil_append] at hp
    obtain ⟨id, hid, rfl⟩ := List.mem_map.1 hp
    obtain ⟨stage, hs, href⟩ :=
      List.mem_flatMap.1 (List.mem_filter.1 (List.mem_eraseDups.1 hid)).1
    obtain ⟨field, hfield, hstr⟩ := List.mem_filterMap.1 href
    obtain ⟨minor, hvalid⟩ := hstage stage hs
    obtain ⟨id', items, hid', hlookup⟩ := mem_stageReferences hvalid hfield
    obtain rfl : id' = id := by
      have := Value.asStr_eq_some.1 hstr
      rw [hid'] at this
      cases this
      rfl
    obtain ⟨-, a, ha, haid⟩ := byId_of_lookup hg hlookup
    refine ⟨(items, a), ?_, ha⟩
    simp [resolve, hlookup, haid]
  obtain ⟨found, hfound, hmem⟩ := exists_map_eq hselected
  have hids : found.map (·.2.id) = (refs.foldl (insertNew resolve) []).map Prod.fst := by
    rw [hfound, List.map_map]
    rfl
  refine ⟨found, hmem, ?_, ?_, ?_⟩
  · have hwalk := fold_selectStage hresolved 0 []
    have hdicts : (refs.foldl (insertNew resolve) []).map (fun p => Value.dict p.2) =
        found.map fun f => .dict f.1 := by
      rw [hfound, List.map_map]
      rfl
    have hlist : artifactInventory urlparse
        [(.str "matrix_artifacts", .list (found.map fun f => .dict f.1))] "matrix_artifacts" =
          .ok (found.map Prod.snd) :=
      traverse_zipIdx_dict (fun f hf => hg.valid f (hmem f hf)) 0
    rw [kubernetesUpgradeInventory, inventory_eq hg, guestUpgradeInventory_eq hg,
      lookup_getD_of_get hg.normal_eq, hg.guests_eq, hm.matrix_eq]
    cases hst : stages with
    | nil =>
      have hlast := hm.last_kubernetes
      rw [hst] at hlast
      cases hlast
    | cons stage rest =>
      rw [hst, List.map_append] at hwalk
      simp only [Except.bind, Value.asList, List.map_cons]
      rw [← List.map_cons, hwalk]
      simp only [← hst, ← hrefs, hdicts, hlist]
  · rw [hids, foldl_insertNew, List.nil_append, List.map_map]
    have hall : (refs.filter fun id => id ∉ ([] : List (String × Items)).map Prod.fst) = refs := by
      simp
    rw [hall]
    exact List.map_id refs.eraseDups
  · rw [hids]
    exact nodup_insertNew List.nodup_nil

/-! ### The upgrade matrix of an accepted lock -/

/-- The entries of the two artifact groups. -/
def lockEntries (lock : Items) : List Value :=
  (((lock.lookup "artifacts").getD (.list [])).asList).getD [] ++
    (((lock.lookup "guest_upgrade_artifacts").getD (.list [])).asList).getD []

/-- The minor of a version field of a stage. -/
def stageMinor (stage : Items) (field : String) : Option ℕ :=
  (stage.get field).asStr.bind fun version =>
    match kubernetesVersion version with
    | .ok minor => minor
    | .error _ => none

/-- The version field that an artifact of the given reference field must agree with. -/
def versionField (field : String) : String :=
  if field = "cri_o_artifact" then "cri_o" else "kubernetes"

theorem getLast?_range' {n m : ℕ} (h : n ≤ m) :
    (List.range' n (m + 1 - n)).getLast? = some m := by
  obtain ⟨k, rfl⟩ := Nat.exists_eq_add_of_le h
  rw [show n + k + 1 - n = k + 1 by omega, List.range'_concat]
  simp

/-- **The upgrade matrix of an accepted lock.**  Its Kubernetes minors ascend one by one and end at
the target version, CRI-O has the same minor in every stage, every reference of a stage is an entry
of the lock with the component and version the stage states, and the inventory lists exactly the
artifacts referred to, each once, in the order of first reference. -/
theorem upgradeMatrix_inventory {data : Value} (h : loadLock urlparse data = .ok lock) :
    ∃ (stages : List Items) (minors : List ℕ) (target : String) (targetMinor : ℕ)
      (selected : List Artifact),
      lock.get "kubernetes_upgrade_matrix" = .list (stages.map .dict) ∧
      List.Forall₂ (fun stage minor => stageMinor stage "kubernetes" = some minor ∧
        stageMinor stage "cri_o" = some minor) stages minors ∧
      minors.IsChain (fun a b => b = a + 1) ∧
      fieldAt ["kubernetes", "version"] data = some (.str target) ∧
      kubernetesVersion target = .ok (some targetMinor) ∧
      minors.getLast? = some targetMinor ∧
      stages.getLast?.map (·.get "kubernetes") = some (.str target) ∧
      (∀ stage ∈ stages, ∀ expected ∈ expectedComponents, ∃ entry : Items,
        .dict entry ∈ lockEntries lock ∧ (∃ id, stage.get expected.1 = .str id ∧
          entry.get "id" = .str id) ∧ entry.get "component" = .str expected.2 ∧
          entry.get "version" = stage.get (versionField expected.1)) ∧
      kubernetesUpgradeInventory urlparse lock = .ok selected ∧
      selected.map Artifact.id = (stages.flatMap stageReferences).eraseDups ∧
      (selected.map Artifact.id).Nodup ∧
      ∀ a ∈ selected, ∃ entry : Items, .dict entry ∈ lockEntries lock ∧
        ValidArtifact urlparse entry a := by
  obtain ⟨rfl, -, artifacts, hartifacts, hmatrix⟩ := loadLock_eq_ok h
  obtain ⟨normal, guests, hg, rfl⟩ := validateArtifacts_eq_ok hartifacts
  obtain ⟨stages, minors, target, hm⟩ := validateUpgradeMatrix_eq_ok hmatrix
  obtain ⟨found, hmem, hinventory, hids, hnodup⟩ := kubernetesUpgradeInventory_eq hg hm
  obtain ⟨first, targetMinor, htarget, hle, hrange⟩ := hm.minors_eq
  have hentries : ∀ f ∈ normal ++ guests, Value.dict f.1 ∈ lockEntries lock := by
    intro f hf
    rw [lockEntries, lookup_getD_of_get hg.normal_eq, hg.guests_eq]
    simp only [Value.asList, Option.getD_some, ← List.map_append]
    exact List.mem_map.2 ⟨f, hf, rfl⟩
  refine ⟨stages, minors, target, targetMinor, found.map Prod.snd, hm.matrix_eq, ?_, ?_,
    hm.target_eq, htarget, ?_, hm.last_kubernetes, ?_, hinventory, ?_, ?_, ?_⟩
  · refine hm.stages_valid.imp fun stage minor hstage => ?_
    obtain ⟨kubernetes, crio, hk, hkv, hc, hcv, -⟩ := hstage.versions
    simp [stageMinor, hk, hkv, hc, hcv, Value.asStr]
  · rw [hrange]
    exact List.isChain_range' first _ 1
  · rw [hrange]
    exact getLast?_range' hle
  -- a stage finds its references in the map by id, which holds the entries of the lock
  · intro stage hs expected hexp
    obtain ⟨n, hn, rfl⟩ := List.mem_iff_getElem.1 hs
    have hstage := hm.stages_valid.get hn (hm.stages_valid.length_eq ▸ hn)
    obtain ⟨kubernetes, crio, hk, -, hc, -, hrefs⟩ := hstage.versions
    obtain ⟨id, items, hid, hlookup, hcomponent, hversion⟩ := hrefs expected hexp
    obtain ⟨-, a, ha, rfl⟩ := byId_of_lookup hg hlookup
    refine ⟨items, hentries _ ha, ⟨a.id, hid, (hg.valid _ ha).id_eq⟩, hcomponent, ?_⟩
    simp only [List.get_eq_getElem] at hk hc
    rw [hversion, versionField]
    split_ifs
    · exact hc.symm
    · exact hk.symm
  · rw [List.map_map]
    exact hids
  · rw [List.map_map]
    exact hnodup
  · intro a ha
    obtain ⟨f, hf, rfl⟩ := List.mem_map.1 ha
    exact ⟨f.1, hentries f (hmem f hf), hg.valid f (hmem f hf)⟩

/-! ### Images -/

theorem rpartition_eq_none {c : Char} {separator cs : List Char} (h : c ∉ cs) :
    rpartition (c :: separator) cs = none := by
  induction cs with
  | nil => rfl
  | cons d cs ih =>
    simp only [List.mem_cons, not_or] at h
    rw [rpartition, ih h.2]
    simp [List.isPrefixOf?, h.1]

/-- The last occurrence is the one after which the separator's first character is gone. -/
theorem rpartition_append {c : Char} {separator before after : List Char} (hs : c ∉ separator)
    (ha : c ∉ after) :
    rpartition (c :: separator) (before ++ (c :: separator ++ after)) = some (before, after) := by
  induction before with
  | nil =>
    have hrest : c ∉ separator ++ after := by simp [hs, ha]
    rw [List.nil_append, List.cons_append, rpartition, rpartition_eq_none hrest, ← List.cons_append,
      Py.isPrefixOf?_append]
    rfl
  | cons d before ih => rw [List.cons_append, rpartition, ih]

/-- A pinned reference ends with the mark, 64 digits, and at most a newline. -/
theorem exists_of_isPinned {reference : String} (h : isPinned reference = true) :
    ∃ repository digest tail, reference.toList = repository ++ (digestMark.toList ++
      (digest ++ tail)) ∧ digest.length = 64 ∧ digest.all isLowerHex = true ∧
      (tail = [] ∨ tail = ['\n']) := by
  obtain ⟨suffix, hsuffix, hdigest⟩ := List.any_eq_true.1 h
  obtain ⟨repository, hrep⟩ := (List.mem_tails _ _).1 hsuffix
  unfold digestAt at hdigest
  split at hdigest
  · rename_i rest hrest
    simp only [Bool.and_eq_true, decide_eq_true_eq, atEnd, Bool.or_eq_true, beq_iff_eq] at hdigest
    refine ⟨repository, rest.take 64, rest.drop 64, ?_, ?_, hdigest.1.2, hdigest.2⟩
    · rw [List.take_append_drop, ← Py.isPrefixOf?_eq_some hrest, hrep]
    · rw [List.length_take]
      omega
  · cases hdigest

theorem at_notMem_of_hex {cs : List Char} (h : cs.all isLowerHex = true) : '@' ∉ cs := by
  intro hmem
  exact absurd (List.all_eq_true.1 h _ hmem) (by decide)

/-- An entry of `oci_images` that the cache can use: a non-empty id, a path inside the cache, and a
reference made of a repository and a lower-case digest with nothing after it. -/
structure UsableImage (image : Items) : Prop where
  id_ok : ∃ id, image.get "id" = .str id ∧ id ≠ ""
  path_ok : ∃ path, image.get "cache_path" = .str path ∧ path ≠ "" ∧ Py.isAbsolute path = false ∧
    ".." ∉ Py.pathParts path
  reference_ok : ∃ reference repository digest, image.get "reference" = .str reference ∧
    reference.toList = repository ++ (digestMark.toList ++ digest) ∧ repository ≠ [] ∧
    digest.length = 64 ∧ digest.all isLowerHex = true

theorem safeCachePath_isOk_iff {value : Value} {place : String} :
    (∃ path, safeCachePath value place = .ok path) ↔
      ∃ path, value = .str path ∧ path ≠ "" ∧ Py.isAbsolute path = false ∧
        ".." ∉ Py.pathParts path := by
  constructor
  · rintro ⟨path, h⟩
    unfold safeCachePath at h
    split at h
    · cases h
    rename_i text htext
    simp only [valueError, Py.ite_error_eq_ok, not_or, Bool.not_eq_true] at h
    exact ⟨text, Value.asStr_eq_some.1 htext, h.1, h.2.1⟩
  · rintro ⟨path, rfl, hne, habs, hup⟩
    exact ⟨path, by simp [safeCachePath, Value.asStr, hne, habs, hup]⟩

/-- What `load_lock` accepts of an image is listed exactly when the image is usable. -/
theorem ociEntry_isOk_iff {image : Items} {reference : String} {place : String}
    (href : image.get "reference" = .str reference) (hpinned : isPinned reference = true)
    (hplatform : image.get "platform" = .str "linux/amd64") :
    (∃ item, ociEntry place (.dict image) = .ok item) ↔ UsableImage image := by
  obtain ⟨repository, digest, tail, htext, hlen, hhex, htail⟩ := exists_of_isPinned hpinned
  have hat : '@' ∉ digest ++ tail := by
    rcases htail with rfl | rfl <;> simp [at_notMem_of_hex hhex]
  have hpart : rpartition digestMark.toList reference.toList = some (repository, digest ++ tail) := by
    rw [htext]
    exact rpartition_append (by decide) hat
  -- the pattern of `load_lock` lets a last line break pass, the check of the digest does not
  have hsha : isSha256 (String.ofList (digest ++ tail)) = true ↔ tail = [] := by
    constructor
    · intro h
      simp only [isSha256, String.toList_ofList, Bool.and_eq_true, decide_eq_true_eq] at h
      have := h.1
      rw [List.length_append] at this
      exact List.length_eq_zero_iff.1 (by omega)
    · rintro rfl
      exact (isSha256_of_isHex (by simp [isHex, hlen, hhex])).1
  constructor
  · rintro ⟨item, h⟩
    simp only [ociEntry, Value.asDict] at h
    obtain ⟨path, hpath, h⟩ := Py.bind_eq_ok.1 h
    split at h
    · cases h
    rename_i id hid
    simp only [valueError, Py.ite_error_eq_ok] at h
    obtain ⟨hne, h⟩ := h
    rw [href] at h
    simp only [Value.asStr, Option.bind_some, hpart, Py.ite_error_eq_ok, not_or, not_not] at h
    obtain ⟨⟨hrep, hdigest⟩, -⟩ := h
    obtain rfl := hsha.1 hdigest
    exact
      { id_ok := ⟨id, Value.asStr_eq_some.1 hid, hne⟩
        path_ok := safeCachePath_isOk_iff.1 ⟨path, hpath⟩
        reference_ok := ⟨reference, repository, digest, href, by simpa using htext, hrep, hlen, hhex⟩ }
  · rintro ⟨⟨id, hid, hne⟩, hpathok, ⟨reference', repository', digest', href', htext', hrep', hlen',
      hhex'⟩⟩
    obtain ⟨path, hpath⟩ : ∃ path, safeCachePath (image.get "cache_path") (place ++ ".cache_path") =
        .ok path := safeCachePath_isOk_iff.2 hpathok
    obtain rfl : reference = reference' := by
      rw [href] at href'
      cases href'
      rfl
    have hpart' : rpartition digestMark.toList reference.toList = some (repository', digest') := by
      rw [htext']
      exact rpartition_append (by decide) (at_notMem_of_hex hhex')
    have hsha' : isSha256 (String.ofList digest') = true :=
      (isSha256_of_isHex (by simp [isHex, hlen', hhex'])).1
    have hslash : ("linux/amd64".toList.count '/' ≠ 1) = False := by decide
    simp only [ociEntry, Value.asDict, hpath, Except.bind, hid, Value.asStr, hne, if_false, href,
      Option.bind_some, hpart', hrep', hsha', not_true_eq_false, or_self, hplatform, hslash]
    exact ⟨_, rfl⟩

/-- The four inventories of a lock all succeed. -/
def InventoriesSucceed (urlparse : UrlParse) (lock : Items) : Prop :=
  (∃ items, inventory urlparse lock = .ok items) ∧
    (∃ items, guestUpgradeInventory urlparse lock = .ok items) ∧
    (∃ items, kubernetesUpgradeInventory urlparse lock = .ok items) ∧
    ∃ items, ociInventory lock = .ok items

/-- **When the cache can list an accepted lock**: exactly when every entry of `oci_images` has a
non-empty id, a path inside the cache, and a reference with a repository and nothing after the
digest. -/
theorem inventories_isOk_iff {data : Value} (h : loadLock urlparse data = .ok lock) :
    InventoriesSucceed urlparse lock ↔
      ∀ image : Items, Value.dict image ∈ ((lock.get "oci_images").asList).getD [] →
        UsableImage image := by
  obtain ⟨-, himages, artifacts, hartifacts, hmatrix⟩ := loadLock_eq_ok h
  obtain ⟨normal, guests, hg, rfl⟩ := validateArtifacts_eq_ok hartifacts
  obtain ⟨stages, minors, target, hm⟩ := validateUpgradeMatrix_eq_ok hmatrix
  obtain ⟨found, -, hinventory, -, -⟩ := kubernetesUpgradeInventory_eq hg hm
  obtain ⟨images, hlist, hall⟩ := checkImages_eq_ok himages
  have hmem : ∀ image : Items, Value.dict image ∈ ((lock.get "oci_images").asList).getD [] ↔
      image ∈ images := by
    intro image
    simp [hlist, Value.asList]
  -- the other inventories succeed on every accepted lock
  have hoci : (∃ items, ociInventory lock = .ok items) ↔ ∀ image ∈ images, UsableImage image := by
    rw [ociInventory, lookup_getD_of_get hlist]
    simp only [Value.asList]
    rw [Py.traverse_isOk]
    constructor
    · intro hok image himage
      have hentry : Value.dict image ∈ ((images.map Value.dict).zipIdx 0).map Prod.fst := by
        rw [List.zipIdx_map_fst]
        exact List.mem_map.2 ⟨image, himage, rfl⟩
      obtain ⟨⟨v, n⟩, hp, heq⟩ := List.mem_map.1 hentry
      obtain rfl : v = .dict image := heq
      obtain ⟨⟨reference, href, hpinned⟩, hplatform⟩ := hall image himage
      exact (ociEntry_isOk_iff href hpinned hplatform).1 (hok _ hp)
    · rintro husable ⟨v, n⟩ hp
      have hv : v ∈ images.map Value.dict := by
        rw [← List.zipIdx_map_fst 0 (images.map Value.dict)]
        exact List.mem_map.2 ⟨_, hp, rfl⟩
      obtain ⟨image, himage, rfl⟩ := List.mem_map.1 hv
      obtain ⟨⟨reference, href, hpinned⟩, hplatform⟩ := hall image himage
      exact (ociEntry_isOk_iff href hpinned hplatform).2 (husable image himage)
  constructor
  · rintro ⟨-, -, -, hok⟩ image himage
    exact hoci.1 hok image ((hmem image).1 himage)
  · intro husable
    exact ⟨⟨_, inventory_eq hg⟩, ⟨_, guestUpgradeInventory_eq hg⟩, ⟨_, hinventory⟩,
      hoci.2 fun image himage => husable image ((hmem image).2 himage)⟩

end Accepted

/-! ### A lock -/

/-- Sixty-four zeros. -/
def zeroDigest : String :=
  "0000000000000000000000000000000000000000000000000000000000000000"

/-- The digest of the letter `a`. -/
def letterDigest : String := "ca978112ca1bbdcafac231b39a23dc4da786eff8147c4e72b9807785afee48bb"

/-- `urlparse` of a URL that starts with the HTTPS scheme; the network location ends at the next
slash. -/
def httpsParse (url : String) : Except Exc (String × String) :=
  match "https://".toList.isPrefixOf? url.toList with
  | some rest => .ok ("https", String.ofList (rest.takeWhile (· != '/')))
  | none => .ok ("", "")

/-- An entry of `artifacts` with a version. -/
def versionedArtifact (version id component path sha256 : String) : Value :=
  .dict [(.str "id", .str id), (.str "component", .str component), (.str "version", .str version),
    (.str "cache_path", .str path), (.str "sha256", .str sha256),
    (.str "url", .str ("https://example.org/" ++ id))]

/-- An entry of `artifacts`. -/
def sampleArtifact (id component path sha256 : String) : Value :=
  versionedArtifact "v1.34.1" id component path sha256

/-- The three artifacts that a matrix of one stage refers to, with the given paths and digests. -/
def sampleArtifacts (kubelet control crio : String × String) : List Value :=
  [sampleArtifact "kubelet" "kubelet" kubelet.1 kubelet.2,
    sampleArtifact "control-plane" "kubernetes-control-plane" control.1 control.2,
    sampleArtifact "cri-o" "cri-o" crio.1 crio.2]

/-- A lock with the given artifacts and images. -/
def sampleLock (artifacts images : List Value) : Items :=
  [(.str "schema_version", .int 2),
    (.str "fedora", .dict [(.str "kernel", .str "6.17.1")]),
    (.str "kubernetes", .dict [(.str "version", .str "v1.34.1"), (.str "cri_o", .str "v1.34.1"),
      (.str "crun", .str "1.24")]),
    (.str "cilium", .dict [(.str "version", .str "1.18.2")]),
    (.str "cluster_api", .dict [(.str "version", .str "v1.11.1")]),
    (.str "kind", .dict [(.str "version", .str "v0.30.0"),
      (.str "node_image", .str
        "kindest/node@sha256:0000000000000000000000000000000000000000000000000000000000000000")]),
    (.str "packer", .dict [(.str "version", .str "1.14.2")]),
    (.str "cloud_hypervisor", .dict [(.str "version", .str "v48.0")]),
    (.str "cluster_api_hypervisor", .dict [(.str "version", .str "v0.3.17"),
      (.str "commit", .str "0000000000000000000000000000000000000000"),
      (.str "source", .dict [(.str "url", .str "https://example.org/source"),
        (.str "sha256", .str zeroDigest)]),
      (.str "image", .dict [(.str "reference", .str
        "provider@sha256:0000000000000000000000000000000000000000000000000000000000000000")])]),
    (.str "oci_images", .list images),
    (.str "artifacts", .list artifacts),
    (.str "kubernetes_upgrade_matrix", .list [.dict [(.str "kubernetes", .str "v1.34.1"),
      (.str "cri_o", .str "v1.34.1"), (.str "kubelet_artifact", .str "kubelet"),
      (.str "control_plane_artifact", .str "control-plane"),
      (.str "cri_o_artifact", .str "cri-o")]])]

/-- An image entry without an id. -/
def namelessImage : Items :=
  [(.str "cache_path", .str "oci/manager"), (.str "platform", .str "linux/amd64"),
    (.str "reference", .str
      "manager@sha256:0000000000000000000000000000000000000000000000000000000000000000")]

/-- An image entry with everything. -/
def managerImage : Items := (.str "id", .str "manager") :: namelessImage

/-- The artifacts of the sample lock under three directories. -/
def plainArtifacts : List Value :=
  sampleArtifacts ("bin/kubelet", zeroDigest) ("bin/server.tar.gz", zeroDigest)
    ("bin/cri-o.tar.gz", zeroDigest)

/-- A lock whose only image has no id. -/
def namelessLock : Items := sampleLock plainArtifacts [.dict namelessImage]

/-- A lock whose only image is complete. -/
def managerLock : Items := sampleLock plainArtifacts [.dict managerImage]

/-- An artifact of a stage, stored under its id. -/
def stageArtifact (version id component sha256 : String) : Value :=
  versionedArtifact version (id ++ "-" ++ version) component (id ++ "-" ++ version) sha256

/-- The digest of an archive of binaries. -/
def archiveDigest : String := "071747b4e03c3e5b378abd3456a6ea868d8d5fe0bb934e9f0bdd6a80b2a165ac"

/-- The artifacts of a stage: a kubelet of one byte, and twice the archive. -/
def stageArtifacts (version : String) : List Value :=
  [stageArtifact version "kubelet" "kubelet" letterDigest,
    stageArtifact version "control-plane" "kubernetes-control-plane" archiveDigest,
    stageArtifact version "cri-o" "cri-o" archiveDigest]

/-- The stage that refers to them. -/
def sampleStage (version : String) : Items :=
  [(.str "kubernetes", .str version), (.str "cri_o", .str version),
    (.str "kubelet_artifact", .str ("kubelet-" ++ version)),
    (.str "control_plane_artifact", .str ("control-plane-" ++ version)),
    (.str "cri_o_artifact", .str ("cri-o-" ++ version))]

/-- Two stages. -/
def twoStages : List Items := [sampleStage "v1.33.5", sampleStage "v1.34.1"]

/-- A lock with a matrix of two stages, and an artifact that is of neither.  Two stages never share an
artifact, because the version of an artifact has the minor of its stage. -/
def twoStageLock : Items :=
  (sampleLock (["v1.33.5", "v1.34.1"].flatMap stageArtifacts ++
    [sampleArtifact "cilium" "cilium-cli" "bin/cilium" zeroDigest]) []).dropLast ++
    [(.str "kubernetes_upgrade_matrix", .list (twoStages.map .dict))]

theorem loadLock_of_check {lock : Items}
    (h : Py.okAnd (loadLock httpsParse (.dict lock)) (fun _ => true) = true) :
    loadLock httpsParse (.dict lock) = .ok lock := by
  obtain ⟨lock', hlock, -⟩ := Py.okAnd_eq_true.1 h
  obtain ⟨heq, -⟩ := loadLock_eq_ok hlock
  cases heq
  exact hlock

/-- Both locks pass every check. -/
theorem checked_sampleLocks : ∀ lock ∈ [namelessLock, managerLock],
    Py.okAnd (loadLock httpsParse (.dict lock)) (fun _ => true) = true := by
  decide +kernel

theorem loadLock_namelessLock : loadLock httpsParse (.dict namelessLock) = .ok namelessLock :=
  loadLock_of_check (checked_sampleLocks _ List.mem_cons_self)

theorem loadLock_managerLock : loadLock httpsParse (.dict managerLock) = .ok managerLock :=
  loadLock_of_check (checked_sampleLocks _ (List.mem_cons_of_mem _ List.mem_cons_self))

theorem loadLock_twoStageLock : loadLock httpsParse (.dict twoStageLock) = .ok twoStageLock :=
  loadLock_of_check (by decide +kernel)

/-- The six artifacts of the two stages, in the order of the matrix. -/
theorem upgradeMatrix_inventory_twoStages :
    ∃ selected, kubernetesUpgradeInventory httpsParse twoStageLock = .ok selected ∧
      selected.map Artifact.id = ["kubelet-v1.33.5", "control-plane-v1.33.5", "cri-o-v1.33.5",
        "kubelet-v1.34.1", "control-plane-v1.34.1", "cri-o-v1.34.1"] ∧
      (selected.map Artifact.id).Nodup := by
  obtain ⟨stages, _, _, _, selected, hstages, -, -, -, -, -, -, -, hselected, hids, hnodup, -⟩ :=
    upgradeMatrix_inventory loadLock_twoStageLock
  have hmatrix : twoStageLock.get "kubernetes_upgrade_matrix" = .list (twoStages.map .dict) := rfl
  obtain rfl : twoStages = stages :=
    List.map_injective_iff.2 (fun _ _ => Value.dict.inj) (Value.list.inj (hmatrix.symm.trans hstages))
  have hreferences : (twoStages.flatMap stageReferences).eraseDups = ["kubelet-v1.33.5",
      "control-plane-v1.33.5", "cri-o-v1.33.5", "kubelet-v1.34.1", "control-plane-v1.34.1",
      "cri-o-v1.34.1"] := by decide +kernel
  exact ⟨selected, hselected, hids.trans hreferences, hnodup⟩

theorem inventories_isOk_iff_manager : InventoriesSucceed httpsParse managerLock := by
  refine (inventories_isOk_iff loadLock_managerLock).2 ?_
  intro image himage
  have hget : managerLock.get "oci_images" = .list [.dict managerImage] := rfl
  obtain rfl : image = managerImage := by simpa [hget, Value.asList] using himage
  exact
    { id_ok := ⟨"manager", rfl, by decide⟩
      path_ok := ⟨"oci/manager", rfl, by decide, by decide, by decide⟩
      reference_ok := ⟨_, "manager".toList, zeroDigest.toList, rfl, by decide, by decide, by decide,
        by decide⟩ }

/-- A lock whose image has no id is accepted, and the image inventory refuses it. -/
theorem accepted_lock_not_listed :
    loadLock httpsParse (.dict namelessLock) = .ok namelessLock ∧
      ¬ InventoriesSucceed httpsParse namelessLock := by
  refine ⟨loadLock_namelessLock, ?_⟩
  rintro ⟨-, -, -, items, hok⟩
  have hfail : Py.okAnd (ociInventory namelessLock) (fun _ => true) = false := by decide +kernel
  simp [Py.okAnd, hok] at hfail

end Artifacts
