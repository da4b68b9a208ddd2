import K8Labs.CapiAddons.Sources
import K8Labs.Python.Groups

/-!
# Secrets and ClusterResourceSets

`split_by_size`, `assemble_secret`, `generate_crs_manifest` and the serialisers of
`scripts/generate_capi_addons.py`.  `yaml.dump` is a parameter (`dump`).

* `packed_splitBySize` : the groups hold the entries in order, each once, none above the threshold,
  and are numbered from 1.
* `nodup_groupNames` : no two groups have one name.
* `data_assembleSecret` : a Secret holds the entries of its group.
* `carries_of_groups` : Secrets made of groups that hold the entries, each once, carry the sources
  of the add-on (`Carries`).
-/

namespace CapiAddons

open Py (Exc Value Path Disk)

/-- `SecretGroup`. -/
structure SecretGroup where
  name : String
  entries : List ManifestEntry
  encodedSize : ℕ

/-- `GeneratedSecret`. -/
structure GeneratedSecret where
  name : String
  data : List (String × String)
  nameSpace : String
  secretType : String

/-- `DEFAULT_NAMESPACE`. -/
def defaultNamespace : String := "default"

/-- `RESOURCE_SET_TYPE`. -/
def resourceSetType : String := "addons.cluster.x-k8s.io/resource-set"

/-! ### Packing -/

/-- The error of a manifest that fits in no Secret. -/
def tooLarge (entry : ManifestEntry) (threshold : ℤ) : Exc :=
  ⟨.valueError, "manifest " ++ entry.path.text ++ " has encoded size " ++
    toString entry.encodedSize ++ " which exceeds the per-Secret limit of " ++ toString threshold ++
    " bytes; cannot split a single file"⟩

/-- `f"{base_name}-{n}"`. -/
def numbered (baseName : String) (n : ℕ) : String := baseName ++ "-" ++ toString n

namespace SecretGroup

/-- The group with one more entry. -/
def add (group : SecretGroup) (entry : ManifestEntry) : SecretGroup where
  name := group.name
  entries := group.entries ++ [entry]
  encodedSize := group.encodedSize + entry.encodedSize

/-- A new group after the given number of groups. -/
def opened (baseName : String) (count : ℕ) : SecretGroup := ⟨numbered baseName (count + 1), [], 0⟩

end SecretGroup

/-- One entry: it goes to the current group, the last one, unless that would grow too large. -/
def pack (baseName : String) (threshold : ℤ) (groups : List SecretGroup) (entry : ManifestEntry) :
    Except Exc (List SecretGroup) :=
  if threshold < entry.encodedSize then .error (tooLarge entry threshold)
  else
    match groups.getLast? with
    | some current =>
      if threshold < (current.encodedSize + entry.encodedSize : ℕ) then
        .ok (groups ++ [(SecretGroup.opened baseName groups.length).add entry])
      else .ok (groups.dropLast ++ [current.add entry])
    | none => .ok (groups ++ [(SecretGroup.opened baseName groups.length).add entry])

/-- `split_by_size`. -/
def splitBySize (entries : List ManifestEntry) (baseName : String) (threshold : ℤ) :
    Except Exc (List SecretGroup) :=
  Py.fold (pack baseName threshold) [] (sortedByKey entries)

/-! ### Documents -/

/-- `assemble_secret`. -/
def assembleSecret (group : SecretGroup) : GeneratedSecret where
  name := group.name
  data := Py.Dict.index ManifestEntry.key (fun entry => encoded entry.content) group.entries
  nameSpace := defaultNamespace
  secretType := resourceSetType

/-- `sorted(data.items())`. -/
def sortedItems (data : List (String × String)) : List (String × String) :=
  data.insertionSort fun a b => a.1 < b.1 ∨ a.1 = b.1 ∧ a.2 ≤ b.2

/-- The document of a Secret. -/
def GeneratedSecret.doc (secret : GeneratedSecret) : Value :=
  .dict [(.str "apiVersion", .str "v1"), (.str "kind", .str "Secret"),
    (.str "metadata", .dict [(.str "name", .str secret.name),
      (.str "namespace", .str secret.nameSpace)]),
    (.str "type", .str secret.secretType),
    (.str "data", .dict ((sortedItems secret.data).map fun item => (.str item.1, .str item.2)))]

/-- `generate_crs_manifest`. -/
def crsManifest (crsName : String) (secretNames : List String) (clusterName : String) : Value :=
  .dict [(.str "apiVersion", .str "addons.cluster.x-k8s.io/v1beta2"),
    (.str "kind", .str "ClusterResourceSet"),
    (.str "metadata", .dict [(.str "name", .str crsName),
      (.str "namespace", .str defaultNamespace)]),
    (.str "spec", .dict [
      (.str "clusterSelector", .dict [(.str "matchLabels",
        .dict [(.str "cluster.x-k8s.io/cluster-name", .str clusterName)])]),
      (.str "resources", .list (secretNames.map fun name =>
        .dict [(.str "kind", .str "Secret"), (.str "name", .str name)]))])]

/-- `serialize_secret`. -/
def serializeSecret (dump : Value → String) (secret : GeneratedSecret) : String := dump secret.doc

/-- `serialize_crs`. -/
def serializeCrs (dump : Value → String) (crs : Value) : String := dump crs

/-! ### What packing keeps -/

variable {baseName : String} {threshold : ℤ} {entries rest : List ManifestEntry}
  {entry : ManifestEntry} {groups groups' : List SecretGroup}

/-- The groups hold the entries in order, are numbered and fit. -/
structure Packed (baseName : String) (threshold : ℤ) (entries : List ManifestEntry)
    (groups : List SecretGroup) : Prop where
  entries_eq : groups.flatMap SecretGroup.entries = entries
  names : groups.map SecretGroup.name =
    (List.range groups.length).map fun i => numbered baseName (i + 1)
  fits : ∀ group ∈ groups, (group.encodedSize : ℤ) ≤ threshold ∧
    group.encodedSize = (group.entries.map ManifestEntry.encodedSize).sum

/-- A new group with the entry. -/
theorem Packed.open (h : Packed baseName threshold entries groups)
    (hfits : ¬ threshold < entry.encodedSize) :
    Packed baseName threshold (entries ++ [entry])
      (groups ++ [(SecretGroup.opened baseName groups.length).add entry]) where
  entries_eq := by
    rw [List.flatMap_append, h.entries_eq, List.flatMap_singleton]
    rfl
  names := by
    rw [List.map_append, h.names, List.length_append, List.length_singleton, List.range_succ,
      List.map_append]
    rfl
  fits := by
    intro group hgroup
    rcases List.mem_append.1 hgroup with hgroup | hgroup
    · exact h.fits group hgroup
    · rw [List.mem_singleton.1 hgroup]
      simp only [SecretGroup.opened, SecretGroup.add]
      exact ⟨by omega, by simp⟩

/-- The entry in the current group. -/
theorem Packed.extend {current : SecretGroup} (h : Packed baseName threshold entries groups)
    (hlast : groups.getLast? = some current)
    (hfits : ¬ threshold < (current.encodedSize + entry.encodedSize : ℕ)) :
    Packed baseName threshold (entries ++ [entry]) (groups.dropLast ++ [current.add entry]) := by
  obtain ⟨before, rfl⟩ := List.getLast?_eq_some_iff.1 hlast
  rw [List.dropLast_concat]
  refine ⟨?_, ?_, fun group hgroup => ?_⟩
  · rw [← h.entries_eq, List.flatMap_append, List.flatMap_append, List.flatMap_singleton,
      List.flatMap_singleton, List.append_assoc]
    rfl
  · have hnames := h.names
    rw [List.map_append, List.length_append] at hnames ⊢
    exact hnames
  · rcases List.mem_append.1 hgroup with hgroup | hgroup
    · exact h.fits group (List.mem_append_left _ hgroup)
    · obtain ⟨-, hsum⟩ := h.fits current (by simp)
      rw [List.mem_singleton.1 hgroup]
      simp only [SecretGroup.add]
      exact ⟨by omega, by simp [hsum]⟩

theorem Packed.pack (h : Packed baseName threshold entries groups)
    (hpack : pack baseName threshold groups entry = .ok groups') :
    Packed baseName threshold (entries ++ [entry]) groups' := by
  unfold CapiAddons.pack at hpack
  split_ifs at hpack with hlarge
  split at hpack
  · rename_i current hlast
    split_ifs at hpack with hfull
    · cases hpack
      exact h.open hlarge
    · cases hpack
      exact h.extend hlast hfull
  · cases hpack
    exact h.open hlarge

/-- What is packed stays packed while the loop goes on. -/
theorem Packed.fold (h : Packed baseName threshold entries groups)
    (hfold : Py.fold (CapiAddons.pack baseName threshold) groups rest = .ok groups') :
    Packed baseName threshold (entries ++ rest) groups' := by
  induction rest generalizing entries groups with
  | nil =>
    cases hfold
    rwa [List.append_nil]
  | cons entry rest ih =>
    obtain ⟨next, hnext, hrest⟩ := Py.bind_eq_ok.1 hfold
    simpa using ih (h.pack hnext) hrest

/-- **The groups hold every entry once.** -/
theorem packed_splitBySize (h : splitBySize entries baseName threshold = .ok groups) :
    Packed baseName threshold (sortedByKey entries) groups := by
  have hempty : Packed baseName threshold [] [] := ⟨rfl, rfl, by simp⟩
  exact hempty.fold h

theorem numbered_injective (baseName : String) : Function.Injective (numbered baseName) := by
  intro m n h
  have htext := congrArg String.toList h
  simp only [numbered, String.toList_append, List.append_cancel_left_eq, Py.toList_toString] at htext
  rw [← Py.digitsValue_natDigits m, ← Py.digitsValue_natDigits n, htext]

/-- **No two groups have one name.** -/
theorem Packed.nodup_names (h : Packed baseName threshold entries groups) :
    (groups.map SecretGroup.name).Nodup := by
  rw [h.names]
  refine List.Nodup.map (fun i j hij => ?_) List.nodup_range
  exact Nat.succ_injective (numbered_injective baseName hij)

/-- **A Secret holds the entries of its group.** -/
theorem data_assembleSecret {group : SecretGroup}
    (h : (group.entries.map ManifestEntry.key).Nodup) :
    (assembleSecret group).data =
      group.entries.map fun entry => (entry.key, encoded entry.content) :=
  Py.Dict.index_eq_map h

/-! ### What Secrets carry -/

/-- The Secrets carry the sources of the add-on: each in exactly one of them, and nothing else. -/
structure Carries (d : Disk) (repoRoot : Path) (addon : Addon) (secrets : List GeneratedSecret) :
    Prop where
  once : ∀ relPath bytes, Source d repoRoot addon relPath bytes →
    ∃ before secret after, secrets = before ++ secret :: after ∧
      (canonicalKey relPath, encoded bytes) ∈ secret.data ∧
      ∀ other ∈ before ++ after, canonicalKey relPath ∉ other.data.map Prod.fst
  only : ∀ secret ∈ secrets, ∀ item ∈ secret.data, ∃ relPath bytes,
    Source d repoRoot addon relPath bytes ∧ item = (canonicalKey relPath, encoded bytes)
  /-- No key is twice in a Secret. -/
  keys : ∀ secret ∈ secrets, (secret.data.map Prod.fst).Nodup
  /-- A key is that of one file. -/
  distinct : ∀ relPath relPath' bytes bytes', Source d repoRoot addon relPath bytes →
    Source d repoRoot addon relPath' bytes' → canonicalKey relPath = canonicalKey relPath' →
    relPath = relPath'

/-- An element of the parts, none of which shares an element with another, is in one part. -/
theorem exists_part {α β : Type*} {f : α → List β} {xs : List α} {b : β}
    (hnodup : (xs.flatMap f).Nodup) (hb : b ∈ xs.flatMap f) :
    ∃ before x after, xs = before ++ x :: after ∧ b ∈ f x ∧ ∀ y ∈ before ++ after, b ∉ f y := by
  obtain ⟨x, hx, hbx⟩ := List.mem_flatMap.1 hb
  obtain ⟨before, after, rfl⟩ := List.append_of_mem hx
  refine ⟨before, x, after, rfl, hbx, fun y hy hby => ?_⟩
  rw [List.flatMap_append, List.flatMap_cons] at hnodup
  obtain ⟨-, hrest, hbefore⟩ := List.nodup_append'.1 hnodup
  rcases List.mem_append.1 hy with hy | hy
  · exact hbefore (List.mem_flatMap.2 ⟨y, hy, hby⟩) (List.mem_append_left _ hbx)
  · exact (List.nodup_append'.1 hrest).2.2 hbx (List.mem_flatMap.2 ⟨y, hy, hby⟩)

section Groups

variable {d : Disk} {repoRoot : Path} {addon : Addon}

/-- The keys of all groups together are those of the entries. -/
theorem nodup_groupKeys
    (hdiscover : discoverManifests d repoRoot addon.dir addon.recursive = .ok entries)
    (hperm : (groups.flatMap SecretGroup.entries).Perm entries) :
    (groups.flatMap fun group => group.entries.map ManifestEntry.key).Nodup := by
  rw [← List.map_flatMap, (hperm.map _).nodup_iff]
  exact nodup_discoverManifests hdiscover

theorem keys_assembleSecret {group : SecretGroup}
    (h : (group.entries.map ManifestEntry.key).Nodup) :
    (assembleSecret group).data.map Prod.fst = group.entries.map ManifestEntry.key := by
  rw [data_assembleSecret h, List.map_map]
  rfl

/-- **Secrets made of groups that hold the entries, each once, carry the sources.** -/
theorem carries_of_groups
    (hdiscover : discoverManifests d repoRoot addon.dir addon.recursive = .ok entries)
    (hperm : (groups.flatMap SecretGroup.entries).Perm entries) :
    Carries d repoRoot addon (groups.map assembleSecret) := by
  have hkeys := nodup_groupKeys hdiscover hperm
  have hgroup : ∀ group ∈ groups, (group.entries.map ManifestEntry.key).Nodup :=
    (List.nodup_flatMap.1 hkeys).1
  refine ⟨fun rel bytes hsource => ?_, ?_, ?_, fun _ _ _ _ h h' => h.eq_of_key hdiscover h'⟩
  · -- the entry of the source is in one group, whose key no other group has
    have hentry := hperm.mem_iff.2 ((mem_discoverManifests hdiscover).2 ⟨rel, bytes, hsource, rfl⟩)
    obtain ⟨home, hhome, hmem⟩ := List.mem_flatMap.1 hentry
    have hkey : canonicalKey rel ∈ home.entries.map ManifestEntry.key :=
      List.mem_map.2 ⟨_, hmem, by simp only [entryOf, drop_addonRoot]⟩
    obtain ⟨before, group, after, rfl, hin, hout⟩ :=
      exists_part hkeys (List.mem_flatMap.2 ⟨home, hhome, hkey⟩)
    have hsame : home = group := by
      by_contra hne
      refine hout home ?_ hkey
      simpa [hne] using hhome
    subst hsame
    refine ⟨before.map assembleSecret, assembleSecret home, after.map assembleSecret, by simp, ?_,
      fun other hother => ?_⟩
    · rw [data_assembleSecret (hgroup home hhome)]
      exact List.mem_map.2 ⟨_, hmem, by simp only [entryOf, drop_addonRoot]⟩
    · rw [← List.map_append] at hother
      obtain ⟨group, hg, rfl⟩ := List.mem_map.1 hother
      have hmember : group ∈ before ++ home :: after := by
        rcases List.mem_append.1 hg with hg | hg <;> simp [hg]
      rw [keys_assembleSecret (hgroup group hmember)]
      exact hout group hg
  · intro secret hsecret item hitem
    obtain ⟨group, hg, rfl⟩ := List.mem_map.1 hsecret
    rw [data_assembleSecret (hgroup group hg)] at hitem
    obtain ⟨entry, hentry, rfl⟩ := List.mem_map.1 hitem
    obtain ⟨rel, bytes, hsource, rfl⟩ := (mem_discoverManifests hdiscover).1
      (hperm.mem_iff.1 (List.mem_flatMap.2 ⟨group, hg, hentry⟩))
    refine ⟨rel, bytes, hsource, ?_⟩
    simp only [entryOf, drop_addonRoot]
  · intro secret hsecret
    obtain ⟨group, hg, rfl⟩ := List.mem_map.1 hsecret
    rw [keys_assembleSecret (hgroup group hg)]
    exact hgroup group hg

end Groups

end CapiAddons
