import K8Labs.Management.Corefile
import K8Labs.Python.Edits
import Mathlib.Data.List.Sort

/-!
# The manager deployment of the locked provider

The edits that `patch_provider` of `scripts/bootstrap_management.py` makes in the documents of the
manager deployment: the manager container gets an image, arguments and the SSH key, and its pod the
volumes for these.

* `patchDocument_settles` : a document that is edited once is left alone.
* `keyOnce_of_patchDocument` : the SSH key comes in once, as a volume, a mount and a variable.
-/

namespace Management

namespace Provider

open Py (Exc Scalar Value Items Settles typeError bind_eq_ok map_eq_ok)

open Py.Dict (edit editAll)

open Py.Value (required defaulted editItems editElements editIndexed notIndexed)

/-! ### The manager deployment -/

/-- An edit of a dictionary. -/
abbrev Edit := Scalar × (Option Value → Except Exc Value)

/-- A dictionary of the source. -/
def literal (items : List (String × Value)) : Value :=
  .dict (items.map fun item => (.str item.1, item.2))

/-- `v.get("name") == name`. -/
def isNamed (name : String) (v : Value) : Bool := (v.field "name").eq (.str name)

/-- An entry of a list, with its name. -/
def entry (name : String) (rest : List (String × Value)) : Value :=
  literal (("name", .str name) :: rest)

/-- `v[:] = [x for x in v if x.get("name") != name]`, and an entry of the name behind. -/
def replaceNamed (name : String) (rest : List (String × Value)) (v : Value) : Except Exc Value :=
  v.iterate.bind fun xs => (Py.traverse Value.items xs).bind fun _ =>
    match v with
    | .list _ => .ok (.list (xs.filter (fun x => !isNamed name x) ++ [entry name rest]))
    | _ => typeError "object does not support slice assignment"

/-- `settings[key]`. -/
def setting (settings : List (String × String)) (key : String) : Except Exc String :=
  match settings.lookup key with
  | some value => .ok value
  | none => .error ⟨.keyError, key⟩

/-- `replacements`. -/
def replacements (settings : List (String × String)) : Except Exc (List (String × String)) :=
  (setting settings "agent_address").bind fun address =>
    (setting settings "server_name").map fun serverName =>
      [("--agent-address=", "--agent-address=" ++ address ++ ":9444"),
        ("--agent-server-name=", "--agent-server-name=" ++ serverName),
        ("--agent-ca=", "--agent-ca=/tls/agent-ca/ca.crt"),
        ("--agent-client-cert-dir=", "--agent-client-cert-dir=/tls/agent-client")]

/-- An argument, replaced by the value of its flag. -/
def replaceArgument (table : List (String × String)) : Value → Except Exc Value
  | .scalar (.str argument) => .ok (.str
      (((table.find? fun r => Py.startsWith argument r.1).map Prod.snd).getD argument))
  | _ => .error ⟨.attributeError, "object has no attribute 'startswith'"⟩

/-- The flags that no argument starts with. -/
def missingFlags (table : List (String × String)) (args : List Value) : List String :=
  (table.map Prod.fst).filter fun flag =>
    !args.any fun argument => argument.asStr.any fun text => Py.startsWith text flag

/-- `manager["args"]`. -/
def patchArgs (settings : List (String × String)) : Option Value → Except Exc Value
  | some (.list args) =>
    (replacements settings).bind fun table =>
      (Py.traverse (replaceArgument table) args).bind fun args' =>
        if missingFlags table args' = [] then .ok (.list args')
        else systemExit ("ERROR: locked provider manager is missing agent TLS flags: " ++
          String.intercalate ", " ((missingFlags table args').insertionSort (· ≤ ·)))
  | _ => systemExit "ERROR: locked provider manager deployment has no argument list"

/-- `{"type": "RuntimeDefault"}`. -/
def seccompProfile : Value := literal [("type", .str "RuntimeDefault")]

/-- `manager["securityContext"]`. -/
def securityContext : Value :=
  literal [("runAsNonRoot", .bool true), ("allowPrivilegeEscalation", .bool false),
    ("readOnlyRootFilesystem", .bool true),
    ("capabilities", literal [("drop", .list [.str "ALL"])]), ("seccompProfile", seccompProfile)]

/-- The edits of the manager container. -/
def managerEdits (image : String) (settings : List (String × String)) : List Edit :=
  [(.str "image", fun _ => .ok (.str image)), (.str "args", patchArgs settings),
    (.str "securityContext", fun _ => .ok securityContext)]

/-- The name of the volume and of its mount. -/
def sshVolume : String := "manager-ssh-public-key"

/-- The variable that names the key. -/
def sshVariable : String := "HYPERVISOR_SSH_PUBLIC_KEY_FILE"

/-- The edits that bring the SSH key into the manager container. -/
def sshEdits : List Edit :=
  [(.str "volumeMounts", defaulted (.list []) (replaceNamed sshVolume
      [("mountPath", .str "/etc/k8labs/ssh"), ("readOnly", .bool true)])),
    (.str "env", defaulted (.list []) (replaceNamed sshVariable
      [("value", .str "/etc/k8labs/ssh/ssh-lab.pub")]))]

/-- The edits of the first container that is the manager. -/
def patchManager (edits : List Edit) : List Value → Except Exc (List Value)
  | [] => systemExit "ERROR: locked provider manager deployment has no manager container"
  | container :: rest => container.items.bind fun d =>
    if isNamed "manager" container then (editAll edits d).map fun d' => .dict d' :: rest
    else (patchManager edits rest).map (container :: ·)

/-- The edits of the manager; keys and characters are no containers. -/
def patchContainers (edits : List Edit) (v : Value) : Except Exc Value :=
  v.iterate.bind fun containers => (patchManager edits containers).map .list

/-- A volume, with its secret. -/
def patchVolume (v : Value) : Except Exc Value :=
  v.items.map fun volume =>
    if isNamed "agent-client-certs" v then
      .dict (Items.set volume "secret" (literal [("secretName", .str "k8labs-manager-agent-client")]))
    else if isNamed "agent-ca" v then
      .dict (Items.set volume "secret" (literal [("secretName", .str "k8labs-host-agent-ca"),
        ("items", .list [literal [("key", .str "ca.crt"), ("path", .str "ca.crt")]])]))
    else v

/-- `spec["volumes"]`. -/
def patchVolumes (v : Value) : Except Exc Value :=
  (editElements patchVolume v).bind (replaceNamed sshVolume
    [("secret", literal [("secretName", .str "k8labs-manager-ssh-public-key")])])

/-- `spec["hostAliases"]`. -/
def hostAliases (settings : List (String × String)) : Except Exc Value :=
  (setting settings "agent_address").bind fun address =>
    (setting settings "server_name").map fun serverName =>
      .list [literal [("ip", .str address), ("hostnames", .list [.str serverName])]]

/-- The edits of the pod. -/
def podEdits (image : String) (settings : List (String × String)) : List Edit :=
  [(.str "containers", required "containers" (patchContainers (managerEdits image settings))),
    (.str "securityContext", fun _ => .ok (literal [("seccompProfile", seccompProfile)])),
    (.str "hostAliases", fun _ => hostAliases settings),
    (.str "volumes", defaulted (.list []) patchVolumes),
    (.str "containers", required "containers" (patchContainers sshEdits))]

/-- `document.get("kind") == "Deployment"`, of a dictionary. -/
def isDeployment (document : Value) : Bool := (document.field "kind").eq (.str "Deployment")

/-- The pod of a deployment, edited. -/
def patchDeployment (image : String) (settings : List (String × String)) : Value → Except Exc Value :=
  editIndexed "spec" (editIndexed "template" (editIndexed "spec"
    (editItems notIndexed (editAll (podEdits image settings)))))

/-- A document of the manager deployment. -/
def patchDocument (image : String) (settings : List (String × String)) (document : Value) :
    Except Exc Value :=
  if isDeployment document then patchDeployment image settings document else .ok document

/-! ### Entries by name -/

section Named

variable {name key : String} {rest : List (String × Value)} {v w : Value} {d : Items}

theorem isNamed_entry (name name' : String) (rest : List (String × Value)) :
    isNamed name' (entry name rest) = true ↔ name = name' := by
  have hfield : (entry name rest).field "name" = .str name := rfl
  rw [isNamed, hfield, Value.eq_str_iff, Value.scalar.injEq, Scalar.str.injEq]

theorem isNamed_iff : isNamed name v = true ↔ v.field "name" = .str name := by
  rw [isNamed, Value.eq_str_iff]

theorem isNamed_set (h : key ≠ "name") (d : Items) (u : Value) :
    isNamed name (.dict (Items.set d key u)) = isNamed name (.dict d) := by
  rw [isNamed, isNamed, Value.field_dict, Value.field_dict, Py.Items.get_set_of_ne (Ne.symm h)]

/-- **What an entry is replaced in**: a list of dictionaries. -/
theorem replaceNamed_eq_ok : replaceNamed name rest v = .ok w ↔
    ∃ xs, v = .list xs ∧ (∀ x ∈ xs, ∃ d, x = .dict d) ∧
      w = .list (xs.filter (fun x => !isNamed name x) ++ [entry name rest]) := by
  simp only [replaceNamed, bind_eq_ok]
  constructor
  · rintro ⟨xs, hxs, ds, hds, h⟩
    cases v with
    | list ys =>
      cases hxs
      cases h
      refine ⟨xs, rfl, fun x hx => ?_, rfl⟩
      obtain ⟨d, hd⟩ := Py.traverse_isOk.1 ⟨ds, hds⟩ x hx
      exact ⟨d, Value.items_eq_ok.1 hd⟩
    | scalar s => cases h
    | dict d => cases h
  · rintro ⟨xs, rfl, hxs, rfl⟩
    obtain ⟨ds, hds⟩ := Py.traverse_isOk.2 fun x hx =>
      (hxs x hx).imp fun d hd => Value.items_eq_ok.2 hd
    exact ⟨xs, rfl, ds, hds, rfl⟩

theorem filter_entry (name : String) (rest : List (String × Value)) (xs : List Value) :
    (xs.filter (fun x => !isNamed name x) ++ [entry name rest]).filter (fun x => !isNamed name x) =
      xs.filter fun x => !isNamed name x := by
  rw [List.filter_append, List.filter_filter, List.filter_cons_of_neg, List.filter_nil,
    List.append_nil]
  · simp only [Bool.and_self]
  · rw [(isNamed_entry name name rest).2 rfl]
    exact Bool.false_ne_true

theorem replaceNamed_settles (name : String) (rest : List (String × Value)) :
    Settles (replaceNamed name rest) := by
  intro v w h
  obtain ⟨xs, -, hxs, rfl⟩ := replaceNamed_eq_ok.1 h
  refine replaceNamed_eq_ok.2 ⟨_, rfl, fun x hx => ?_, ?_⟩
  · rcases List.mem_append.1 hx with hx | hx
    · exact hxs x (List.mem_of_mem_filter hx)
    · exact ⟨_, List.mem_singleton.1 hx⟩
  · rw [filter_entry]

/-- The entry is there once. -/
theorem countP_replaceNamed (h : replaceNamed name rest v = .ok w) :
    w.elements.countP (isNamed name) = 1 := by
  obtain ⟨xs, -, -, rfl⟩ := replaceNamed_eq_ok.1 h
  have hkept : (xs.filter fun x => !isNamed name x).countP (isNamed name) = 0 := by
    rw [List.countP_eq_zero]
    intro x hx hnamed
    have := (List.mem_filter.1 hx).2
    rw [hnamed] at this
    cases this
  rw [Value.elements, List.countP_append, hkept, List.countP_cons_of_pos, List.countP_nil]
  exact (isNamed_entry name name rest).2 rfl

end Named

/-! ### Volumes -/

section Volumes

variable {v w : Value}

/-- What becomes of a volume: it is left alone, or gets a secret. -/
theorem patchVolume_eq_ok (h : patchVolume v = .ok w) :
    (∃ d, w = .dict d) ∧ (∀ name, isNamed name w = isNamed name v) ∧ patchVolume w = .ok w := by
  obtain ⟨d, hd, hw⟩ := map_eq_ok.1 h
  obtain rfl := Value.items_eq_ok.1 hd
  have hname : ∀ name u, isNamed name (.dict (Items.set d "secret" u)) = isNamed name (.dict d) :=
    fun name u => isNamed_set (by decide) d u
  -- the secret is found again under its key
  have hagain : ∀ u, Items.set (Items.set d "secret" u) "secret" u = Items.set d "secret" u :=
    fun u => Py.Items.set_of_lookup (by rw [Py.Items.lookup_set, if_pos rfl])
  by_cases hclient : isNamed "agent-client-certs" (.dict d) = true
  · rw [if_pos hclient] at hw
    subst hw
    refine ⟨⟨_, rfl⟩, fun name => hname name _, map_eq_ok.2 ⟨_, rfl, ?_⟩⟩
    rw [if_pos ((hname _ _).trans hclient), hagain]
  rw [if_neg hclient] at hw
  by_cases hca : isNamed "agent-ca" (.dict d) = true
  · rw [if_pos hca] at hw
    subst hw
    refine ⟨⟨_, rfl⟩, fun name => hname name _, map_eq_ok.2 ⟨_, rfl, ?_⟩⟩
    rw [if_neg (by rwa [hname]), if_pos ((hname _ _).trans hca), hagain]
  · rw [if_neg hca] at hw
    subst hw
    exact ⟨⟨d, rfl⟩, fun _ => rfl, h⟩

theorem patchVolume_entry {name : String} {rest : List (String × Value)}
    (hclient : name ≠ "agent-client-certs") (hca : name ≠ "agent-ca") :
    patchVolume (entry name rest) = .ok (entry name rest) := by
  refine map_eq_ok.2 ⟨_, rfl, ?_⟩
  rw [if_neg (mt (isNamed_entry _ _ _).1 hclient), if_neg (mt (isNamed_entry _ _ _).1 hca)]

theorem patchVolumes_settles : Settles patchVolumes := by
  intro v w h
  obtain ⟨u, hu, hw⟩ := bind_eq_ok.1 h
  refine bind_eq_ok.2 ⟨w, ?_, replaceNamed_settles _ _ u w hw⟩
  obtain ⟨ys, rfl, hys, rfl⟩ := replaceNamed_eq_ok.1 hw
  -- what is kept has been edited, and the new volume is none of the two
  have hfixed : ∀ y ∈ ys, patchVolume y = .ok y := by
    cases v with
    | list xs =>
      obtain ⟨ys', hys', heq⟩ := map_eq_ok.1 hu
      cases heq
      intro y hy
      obtain ⟨x, -, hx⟩ := (Py.mem_traverse hys').1 hy
      exact (patchVolume_eq_ok hx).2.2
    | scalar s => obtain ⟨-, -, ⟨⟩⟩ := map_eq_ok.1 hu
    | dict d => obtain ⟨-, -, ⟨⟩⟩ := map_eq_ok.1 hu
  refine map_eq_ok.2 ⟨_, Py.traverse_eq_ok.2 (List.forall₂_same.2 fun y hy => ?_), rfl⟩
  rcases List.mem_append.1 hy with hy | hy
  · exact hfixed y (List.mem_of_mem_filter hy)
  · rw [List.mem_singleton.1 hy]
    exact patchVolume_entry (by decide) (by decide)

end Volumes

/-! ### Arguments -/

section Arguments

variable {settings table : List (String × String)} {v w : Value}

/-- The flags that are replaced. -/
def tlsFlags : List String :=
  ["--agent-address=", "--agent-server-name=", "--agent-ca=", "--agent-client-cert-dir="]

theorem eq_of_prefix_tlsFlags : ∀ a ∈ tlsFlags, ∀ b ∈ tlsFlags, a.toList <+: b.toList → a = b := by
  decide

theorem startsWith_iff {text flag : String} :
    Py.startsWith text flag = true ↔ flag.toList <+: text.toList := by
  rw [Py.startsWith, List.isPrefixOf_iff_prefix]

/-- Every value begins with its flag. -/
theorem replacements_eq_ok (h : replacements settings = .ok table) :
    table.map Prod.fst = tlsFlags ∧ ∀ r ∈ table, Py.startsWith r.2 r.1 = true := by
  obtain ⟨address, -, h⟩ := bind_eq_ok.1 h
  obtain ⟨serverName, -, rfl⟩ := map_eq_ok.1 h
  refine ⟨rfl, ?_⟩
  simp only [List.forall_mem_cons, startsWith_iff, String.append_assoc, String.toList_append]
  exact ⟨List.prefix_append _ _, List.prefix_append _ _, by decide, by decide, by simp⟩

/-- A text that begins with a flag is replaced by the value of that flag. -/
theorem find?_replacements (h : replacements settings = .ok table) {r : String × String}
    (hr : r ∈ table) {text : String} (hstart : Py.startsWith text r.1 = true) :
    (table.find? fun r => Py.startsWith text r.1) = some r := by
  obtain ⟨hflags, -⟩ := replacements_eq_ok h
  obtain ⟨r', hr'⟩ : ∃ r', (table.find? fun r => Py.startsWith text r.1) = some r' :=
    Option.isSome_iff_exists.1 (List.find?_isSome.2 ⟨r, hr, hstart⟩)
  have hmem := List.mem_of_find?_eq_some hr'
  have hstart' := List.find?_some hr'
  have hflag : ∀ {q}, q ∈ table → q.1 ∈ tlsFlags := fun hq => hflags ▸ List.mem_map_of_mem hq
  have hsame : r.1 = r'.1 := by
    rcases List.prefix_or_prefix_of_prefix (startsWith_iff.1 hstart) (startsWith_iff.1 hstart') with
      hpre | hpre
    · exact eq_of_prefix_tlsFlags _ (hflag hr) _ (hflag hmem) hpre
    · exact (eq_of_prefix_tlsFlags _ (hflag hmem) _ (hflag hr) hpre).symm
  have hnodup : (table.map Prod.fst).Nodup := by
    rw [hflags]
    decide
  rw [hr', List.inj_on_of_nodup_map hnodup hmem hr hsame.symm]

theorem replaceArgument_settles (h : replacements settings = .ok table) :
    Settles (replaceArgument table) := by
  intro v w hw
  cases v with
  | scalar s =>
    cases s with
    | str argument =>
      cases hfind : table.find? fun r => Py.startsWith argument r.1 with
      | none =>
        rw [replaceArgument, hfind] at hw
        cases hw
        rw [Option.map_none, Option.getD_none, replaceArgument, hfind]
        rfl
      | some r =>
        have hr := List.mem_of_find?_eq_some hfind
        rw [replaceArgument, hfind] at hw
        cases hw
        rw [Option.map_some, Option.getD_some, replaceArgument,
          find?_replacements h hr ((replacements_eq_ok h).2 r hr)]
        rfl
    | _ => cases hw
  | list xs => cases hw
  | dict d => cases hw

theorem stable_patchArgs (settings : List (String × String)) : Py.Dict.Stable (patchArgs settings) := by
  intro o v h
  unfold patchArgs at h
  split at h
  · obtain ⟨table, htable, h⟩ := bind_eq_ok.1 h
    obtain ⟨args, hargs, h⟩ := bind_eq_ok.1 h
    split_ifs at h with hmissing
    · cases h
      refine bind_eq_ok.2 ⟨table, htable, bind_eq_ok.2 ⟨args, ?_, if_pos hmissing⟩⟩
      exact Py.traverse_settles (replaceArgument_settles htable) _ args hargs
    · cases h
  · cases h

end Arguments

/-! ### Containers -/

section Containers

variable {image : String} {settings : List (String × String)} {edits edits' : List Edit}
  {xs ys : List Value} {v w : Value} {d d' : Items}

/-- The edits leave the name. -/
def KeepName (edits : List Edit) : Prop := ∀ e ∈ edits, Scalar.str "name" ≠ e.1

theorem KeepName.isNamed (h : KeepName edits) (hd : editAll edits d = .ok d') (name : String) :
    isNamed name (.dict d') = isNamed name (.dict d) := by
  have hlookup : List.lookup (Scalar.str "name") d' = List.lookup (Scalar.str "name") d :=
    Py.Dict.lookup_editAll h hd
  rw [Provider.isNamed, Provider.isNamed, Value.field_dict, Value.field_dict, Items.get, Items.lookup,
    hlookup, Items.get, Items.lookup]

/-- What becomes of the containers: the manager is the first one, or behind it. -/
theorem patchManager_cons : patchManager edits (v :: xs) = .ok ys ↔
    ∃ d, v = .dict d ∧
      (isNamed "manager" v = true ∧ (∃ d', editAll edits d = .ok d' ∧ ys = .dict d' :: xs) ∨
        isNamed "manager" v = false ∧ ∃ zs, patchManager edits xs = .ok zs ∧ ys = v :: zs) := by
  rw [patchManager, bind_eq_ok]
  simp only [Value.items_eq_ok]
  refine exists_congr fun d => and_congr_right fun _ => ?_
  by_cases hname : isNamed "manager" v = true
  · rw [if_pos hname, map_eq_ok]
    simp [hname, eq_comm]
  · rw [if_neg hname, map_eq_ok]
    simp [hname, eq_comm]

theorem patchManager_settles (hname : KeepName edits) (hedits : Settles (editAll edits)) :
    Settles (patchManager edits) := by
  intro xs ys h
  induction xs generalizing ys with
  | nil => cases h
  | cons v xs ih =>
    obtain ⟨d, rfl, ⟨hnamed, d', hd', rfl⟩ | ⟨hother, zs, hzs, rfl⟩⟩ := patchManager_cons.1 h
    · have hnamed' := (hname.isNamed hd' "manager").trans hnamed
      exact patchManager_cons.2 ⟨d', rfl, .inl ⟨hnamed', d', hedits d d' hd', rfl⟩⟩
    · exact patchManager_cons.2 ⟨d, rfl, .inr ⟨hother, zs, ih zs hzs, rfl⟩⟩

/-- Edits of the manager that keep each other. -/
theorem patchManager_keeps (hname : KeepName edits')
    (hkeeps : ∀ d d', editAll edits d = .ok d → editAll edits' d = .ok d' → editAll edits d' = .ok d')
    (hxs : patchManager edits xs = .ok xs) (h : patchManager edits' xs = .ok ys) :
    patchManager edits ys = .ok ys := by
  induction xs generalizing ys with
  | nil => cases h
  | cons v xs ih =>
    obtain ⟨d, rfl, ⟨hnamed, d', hd', heq⟩ | ⟨hother, zs, hzs, heq⟩⟩ := patchManager_cons.1 hxs
    · cases heq
      obtain ⟨e, he, ⟨-, e', he', rfl⟩ | ⟨hother, -⟩⟩ := patchManager_cons.1 h
      · cases he
        have hnamed' := (hname.isNamed he' "manager").trans hnamed
        exact patchManager_cons.2 ⟨e', rfl, .inl ⟨hnamed', e', hkeeps _ _ hd' he', rfl⟩⟩
      · cases hother.symm.trans hnamed
    · cases heq
      obtain ⟨e, he, ⟨hnamed, -⟩ | ⟨-, ws, hws, rfl⟩⟩ := patchManager_cons.1 h
      · cases hother.symm.trans hnamed
      · exact patchManager_cons.2 ⟨d, rfl, .inr ⟨hother, ws, ih hzs hws, rfl⟩⟩

/-- A manager is there. -/
theorem exists_manager (h : patchManager edits xs = .ok xs) :
    ∃ d, xs.find? (isNamed "manager") = some (.dict d) ∧ editAll edits d = .ok d := by
  induction xs with
  | nil => cases h
  | cons v xs ih =>
    obtain ⟨d, rfl, ⟨hnamed, d', hd', heq⟩ | ⟨hother, zs, hzs, heq⟩⟩ := patchManager_cons.1 h
    · cases heq
      exact ⟨d, List.find?_cons_of_pos hnamed, hd'⟩
    · cases heq
      obtain ⟨e, he, hfixed⟩ := ih hzs
      exact ⟨e, by rw [List.find?_cons_of_neg (by rw [hother]; exact Bool.false_ne_true), he], hfixed⟩

/-- The containers are a list. -/
theorem patchContainers_eq_ok : patchContainers edits v = .ok w ↔
    ∃ xs ys, v = .list xs ∧ patchManager edits xs = .ok ys ∧ w = .list ys := by
  simp only [patchContainers, bind_eq_ok, map_eq_ok]
  constructor
  · rintro ⟨xs, hxs, ys, hys, rfl⟩
    have hfirst : ∀ x rest, xs = x :: rest → ∃ d, x = .dict d := by
      rintro x rest rfl
      obtain ⟨d, hd, -⟩ := patchManager_cons.1 hys
      exact ⟨d, hd⟩
    cases xs with
    | nil => cases hys
    | cons x rest =>
      obtain ⟨d, rfl⟩ := hfirst x rest rfl
      cases v with
      | list zs =>
        cases hxs
        exact ⟨_, ys, rfl, hys, rfl⟩
      | dict items => cases items <;> cases hxs
      | scalar s =>
        cases s with
        | str s => cases hs : s.toList <;> simp [Value.iterate, hs] at hxs
        | _ => cases hxs
  · rintro ⟨xs, ys, rfl, hys, rfl⟩
    exact ⟨xs, rfl, ys, hys, rfl⟩

end Containers

/-! ### Pods -/

section Pods

variable {image : String} {settings : List (String × String)} {document document' : Value}

theorem managerEdits_stable : ∀ e ∈ managerEdits image settings, Py.Dict.Stable e.2 := by
  simp only [managerEdits, List.forall_mem_cons]
  exact ⟨Py.Dict.stable_const _, stable_patchArgs settings, Py.Dict.stable_const _, by simp⟩

theorem managerEdits_keeps : (managerEdits image settings).Pairwise
    fun e e' => e.1 ≠ e'.1 ∨ Py.Dict.Keeps e.2 e'.2 := by
  simp [managerEdits]

theorem sshEdits_stable : ∀ e ∈ sshEdits, Py.Dict.Stable e.2 := by
  simp only [sshEdits, List.forall_mem_cons]
  exact ⟨Value.stable_defaulted (replaceNamed_settles _ _),
    Value.stable_defaulted (replaceNamed_settles _ _), by simp⟩

theorem sshEdits_keeps : sshEdits.Pairwise fun e e' => e.1 ≠ e'.1 ∨ Py.Dict.Keeps e.2 e'.2 := by
  simp [sshEdits]

theorem keepName_managerEdits : KeepName (managerEdits image settings) := by
  simp [KeepName, managerEdits]

theorem keepName_sshEdits : KeepName sshEdits := by simp [KeepName, sshEdits]

theorem stable_patchContainers {edits : List Edit} (hname : KeepName edits)
    (hedits : Settles (editAll edits)) :
    Py.Dict.Stable (required "containers" (patchContainers edits)) := by
  refine Value.stable_required fun v w h => ?_
  obtain ⟨xs, ys, rfl, hys, rfl⟩ := patchContainers_eq_ok.1 h
  exact patchContainers_eq_ok.2 ⟨ys, ys, rfl, patchManager_settles hname hedits xs ys hys, rfl⟩

/-- The key comes in without undoing the first edits of the manager. -/
theorem keeps_patchContainers : Py.Dict.Keeps
    (required "containers" (patchContainers (managerEdits image settings)))
    (required "containers" (patchContainers sshEdits)) := by
  intro v w hv hw
  obtain ⟨xs, xs', rfl, hxs, heq⟩ := patchContainers_eq_ok.1 hv
  cases heq
  obtain ⟨xs', ys, heq, hys, rfl⟩ := patchContainers_eq_ok.1 hw
  cases heq
  refine patchContainers_eq_ok.2 ⟨ys, ys, rfl, ?_, rfl⟩
  refine patchManager_keeps keepName_sshEdits (fun d d' hd hd' => ?_) hxs hys
  refine Py.Dict.editAll_eq_self_of_editAll managerEdits_stable managerEdits_keeps ?_ hd hd'
  simp [managerEdits, sshEdits]

theorem podEdits_stable : ∀ e ∈ podEdits image settings, Py.Dict.Stable e.2 := by
  simp only [podEdits, List.forall_mem_cons]
  refine ⟨?_, Py.Dict.stable_const _, fun _ _ h => h, Value.stable_defaulted patchVolumes_settles, ?_,
    by simp⟩
  · exact stable_patchContainers keepName_managerEdits
      (Py.Dict.editAll_settles managerEdits_stable managerEdits_keeps)
  · exact stable_patchContainers keepName_sshEdits
      (Py.Dict.editAll_settles sshEdits_stable sshEdits_keeps)

theorem podEdits_keeps : (podEdits image settings).Pairwise
    fun e e' => e.1 ≠ e'.1 ∨ Py.Dict.Keeps e.2 e'.2 := by
  simp [podEdits, keeps_patchContainers]

theorem isDeployment_patchDeployment (h : patchDeployment image settings document = .ok document') :
    isDeployment document' = isDeployment document := by
  obtain ⟨d, d', rfl, hd', rfl⟩ := Value.editItems_eq_ok.1 h
  obtain ⟨v, -, hlookup⟩ := Py.Dict.edit_eq_ok hd'
  have hkind : List.lookup (Scalar.str "kind") d' = List.lookup (Scalar.str "kind") d :=
    (hlookup _).trans (if_neg (by decide))
  rw [isDeployment, isDeployment, Value.field_dict, Value.field_dict, Items.get, Items.lookup, hkind,
    Items.get, Items.lookup]

/-- **A document of the manager deployment that has been edited** is left alone. -/
theorem patchDocument_settles (image : String) (settings : List (String × String)) :
    Settles (patchDocument image settings) := by
  intro document document' h
  unfold patchDocument at h
  split_ifs at h with hkind
  · rw [patchDocument, if_pos ((isDeployment_patchDeployment h).trans hkind)]
    refine Value.editIndexed_settles (Value.editIndexed_settles (Value.editIndexed_settles
      (Value.editItems_settles ?_))) document document' h
    exact Py.Dict.editAll_settles podEdits_stable podEdits_keeps
  · cases h
    rw [patchDocument, if_neg hkind]

theorem isDeployment_patchDocument (h : patchDocument image settings document = .ok document') :
    isDeployment document' = isDeployment document := by
  unfold patchDocument at h
  split_ifs at h with hkind
  · exact isDeployment_patchDeployment h
  · cases h
    rfl

/-! ### The key in the pod -/

/-- The pod of a deployment. -/
def podSpec (document : Value) : Value := document.descend ["spec", "template", "spec"]

/-- The manager of a pod. -/
def manager (pod : Value) : Option Value :=
  (pod.field "containers").elements.find? (isNamed "manager")

/-- The SSH key comes in once: a volume of the pod, and a mount and a variable of its manager. -/
structure KeyOnce (document : Value) : Prop where
  volume : ((podSpec document).field "volumes").elements.countP (isNamed sshVolume) = 1
  mount : ∃ m, manager (podSpec document) = some m ∧
    (m.field "volumeMounts").elements.countP (isNamed sshVolume) = 1 ∧
    (m.field "env").elements.countP (isNamed sshVariable) = 1

/-- What stands under the key of an edit that leaves the dictionary alone. -/
theorem field_of_edit {key : String} {f : Option Value → Except Exc Value} {d : Items}
    (h : edit (.str key) f d = .ok d) :
    f (some ((Value.dict d).field key)) = .ok ((Value.dict d).field key) := by
  obtain ⟨v, hv, hf⟩ := Py.Dict.edit_eq_self_iff.1 h
  rw [Value.field_dict, Items.get, Items.lookup, hv]
  exact hf

theorem keyOnce_of_patchDocument (h : patchDocument image settings document = .ok document')
    (hkind : isDeployment document' = true) : KeyOnce document' := by
  rw [isDeployment_patchDocument h] at hkind
  rw [patchDocument, if_pos hkind] at h
  -- the pod has been edited, so that each of its edits leaves it alone
  have hpod : editItems notIndexed (editAll (podEdits image settings)) (podSpec document) =
      .ok (podSpec document') :=
    Value.editIndexed_eq_ok (Value.editIndexed_eq_ok (Value.editIndexed_eq_ok h))
  obtain ⟨d, pod, -, hedits, hspec⟩ := Value.editItems_eq_ok.1 hpod
  have hleft := Py.Dict.edit_of_editAll podEdits_stable podEdits_keeps hedits
  simp only [podEdits, List.forall_mem_cons] at hleft
  obtain ⟨-, -, -, hvolumes, hcontainers, -⟩ := hleft
  refine ⟨?_, ?_⟩
  · obtain ⟨u, -, hu⟩ := bind_eq_ok.1 (field_of_edit hvolumes)
    rw [hspec]
    exact countP_replaceNamed hu
  · obtain ⟨xs, ys, hxs, hys, heq⟩ := patchContainers_eq_ok.1 (field_of_edit hcontainers)
    cases Value.list.inj (hxs.symm.trans heq)
    obtain ⟨m, hm, hfixed⟩ := exists_manager hys
    have hssh := Py.Dict.edit_of_editAll sshEdits_stable sshEdits_keeps hfixed
    simp only [sshEdits, List.forall_mem_cons] at hssh
    refine ⟨.dict m, ?_, ?_, ?_⟩
    · rw [manager, hspec, hxs]
      exact hm
    · exact countP_replaceNamed (field_of_edit hssh.1)
    · exact countP_replaceNamed (field_of_edit hssh.2.1)

end Pods

end Provider

end Management
