import K8Labs.Management.ManagerDeployment

/-!
# The webhook manifest of the locked provider

The edits that `patch_provider` of `scripts/bootstrap_management.py` makes in the documents of the
webhook manifest: the CA is injected into each configuration, and the webhook services get their
namespace.

* `exists_patchWebhook` : which documents are accepted.
* `patchWebhook_eq_self` : which of these are left alone.
* `patchWebhook_settles` : a document that is edited once is left alone.
-/

namespace Management

namespace Provider

open Py (Exc Scalar Value Items Settles bind_eq_ok map_eq_ok)

open Py.Dict (edit editAll)

open Py.Value (required defaulted editItems editElements)

/-! ### The edits -/

/-- The document configures webhooks. -/
def isConfiguration (document : Value) : Bool :=
  ["MutatingWebhookConfiguration", "ValidatingWebhookConfiguration"].any fun kind =>
    (document.field "kind").eq (.str kind)

/-- The annotation by which the CA is injected. -/
def injectKey : String := "cert-manager.io/inject-ca-from"

/-- The certificate whose CA is injected. -/
def injectValue : Value := .str "hypervisor-system/hypervisor-webhook-serving"

/-- What `v[key] = …` raises on a value that is not a dictionary. -/
def notAssigned : Value → Exc
  | .list _ => ⟨.typeError, "list indices must be integers or slices, not str"⟩
  | _ => ⟨.typeError, "object does not support item assignment"⟩

/-- `metadata.setdefault("annotations", {})[injectKey] = injectValue`. -/
def annotate : Option Value → Except Exc Value :=
  defaulted (.dict []) (editItems notAssigned (edit (.str injectKey) fun _ => .ok injectValue))

/-- `document.setdefault("metadata", {})`, annotated. -/
def patchMetadata : Option Value → Except Exc Value :=
  defaulted (.dict []) (editItems (fun _ => ⟨.attributeError, "object has no attribute 'setdefault'"⟩)
    (edit (.str "annotations") annotate))

/-- The namespace of the webhook service. -/
def namespaceValue : Value := .str "hypervisor-system"

/-- A webhook, with the namespace of its service. -/
def patchHook (v : Value) : Except Exc Value :=
  v.items.bind fun webhook => (webhook.getOr "clientConfig" (.dict [])).items.bind fun config =>
    (config.getOr "service" (.dict [])).items.map fun service =>
      if isNamed "webhook-service" (.dict service) then
        .dict (Items.set webhook "clientConfig" (.dict (Items.set config "service"
          (.dict (Items.set service "namespace" namespaceValue)))))
      else v

/-- The edits of a configuration; there is a loop over the webhooks only when it has the key. -/
def webhookEdits (document : Items) : List Edit :=
  (.str "metadata", patchMetadata) ::
    if (document.lookup "webhooks").isSome then
      [(.str "webhooks", required "webhooks" (editElements patchHook))]
    else []

/-- A document of the webhook manifest. -/
def patchWebhook (v : Value) : Except Exc Value :=
  v.items.bind fun document => (document.get "kind").hashed.bind fun _ =>
    if isConfiguration v then (editAll (webhookEdits document) document).map .dict else .ok v

/-! ### What they accept -/

/-- The webhook can be edited: it is a dictionary, and so are its client configuration and service. -/
def HookAccepted (v : Value) : Prop :=
  ∃ webhook config service : Items, v = .dict webhook ∧
    webhook.getOr "clientConfig" (.dict []) = .dict config ∧
    config.getOr "service" (.dict []) = .dict service

/-- The webhook service has the namespace. -/
def HookPrepared (v : Value) : Prop :=
  isNamed "webhook-service" (v.descend ["clientConfig", "service"]) = true →
    v.descend ["clientConfig", "service", "namespace"] = namespaceValue

/-- The document can be edited: it is a dictionary with a kind, and in a configuration the metadata,
the annotations and the webhooks are what they should be. -/
def Accepted (v : Value) : Prop :=
  ∃ (document : Items) (kind : Scalar), v = .dict document ∧ document.get "kind" = .scalar kind ∧
    (isConfiguration v = true →
      (∃ metadata annotations : Items, document.getOr "metadata" (.dict []) = .dict metadata ∧
        metadata.getOr "annotations" (.dict []) = .dict annotations) ∧
      ∃ webhooks, (document.getOr "webhooks" (.list [])).iterate = .ok webhooks ∧
        ∀ webhook ∈ webhooks, HookAccepted webhook)

/-- The CA is injected, and the webhook services have the namespace. -/
def Prepared (v : Value) : Prop :=
  v.descend ["metadata", "annotations", injectKey] = injectValue ∧
    ∀ webhook ∈ (v.field "webhooks").elements, HookPrepared webhook

section Webhooks

variable {v w : Value} {d : Items} {key : String}

/-- What becomes of a webhook. -/
theorem patchHook_of_accepted {webhook config service : Items} (hv : v = .dict webhook)
    (hconfig : webhook.getOr "clientConfig" (.dict []) = .dict config)
    (hservice : config.getOr "service" (.dict []) = .dict service) :
    patchHook v = .ok (if isNamed "webhook-service" (.dict service) then
      .dict (Items.set webhook "clientConfig" (.dict (Items.set config "service"
        (.dict (Items.set service "namespace" namespaceValue)))))
      else v) :=
  bind_eq_ok.2 ⟨webhook, Value.items_eq_ok.2 hv, bind_eq_ok.2 ⟨config, Value.items_eq_ok.2 hconfig,
    map_eq_ok.2 ⟨service, Value.items_eq_ok.2 hservice, rfl⟩⟩⟩

theorem exists_patchHook : (∃ w, patchHook v = .ok w) ↔ HookAccepted v := by
  constructor
  · rintro ⟨w, h⟩
    obtain ⟨webhook, hv, h⟩ := bind_eq_ok.1 h
    obtain ⟨config, hconfig, h⟩ := bind_eq_ok.1 h
    obtain ⟨service, hservice, -⟩ := map_eq_ok.1 h
    exact ⟨webhook, config, service, Value.items_eq_ok.1 hv, Value.items_eq_ok.1 hconfig,
      Value.items_eq_ok.1 hservice⟩
  · rintro ⟨webhook, config, service, hv, hconfig, hservice⟩
    exact ⟨_, patchHook_of_accepted hv hconfig hservice⟩

/-- A service with a name is there. -/
theorem lookup_service {webhook config service : Items}
    (hconfig : webhook.getOr "clientConfig" (.dict []) = .dict config)
    (hservice : config.getOr "service" (.dict []) = .dict service)
    (hnamed : isNamed "webhook-service" (.dict service) = true) :
    webhook.lookup "clientConfig" = some (.dict config) ∧
      config.lookup "service" = some (.dict service) := by
  have hlookup : config.lookup "service" = some (.dict service) := by
    refine Py.Items.lookup_of_getOr hservice ?_
    rintro ⟨⟩
    cases isNamed_iff.1 hnamed
  refine ⟨Py.Items.lookup_of_getOr hconfig ?_, hlookup⟩
  rintro ⟨⟩
  cases hlookup

/-- **A webhook that is left alone**. -/
theorem patchHook_eq_self (h : HookAccepted v) : patchHook v = .ok v ↔ HookPrepared v := by
  obtain ⟨webhook, config, service, rfl, hconfig, hservice⟩ := h
  have hdescend : ∀ key', ((webhook.get "clientConfig").field "service").field key' =
      service.get key' := by
    intro key'
    rw [Py.Items.getOr_dict hconfig, Py.Items.getOr_dict hservice]
  have hname : isNamed "webhook-service" ((Value.dict webhook).descend ["clientConfig", "service"]) =
      isNamed "webhook-service" (.dict service) := by
    rw [isNamed, isNamed, Value.field_dict, ← hdescend]
    rfl
  have hspace : (Value.dict webhook).descend ["clientConfig", "service", "namespace"] =
      service.get "namespace" := hdescend "namespace"
  rw [patchHook_of_accepted rfl hconfig hservice, HookPrepared, hname, hspace, Except.ok.injEq]
  by_cases hnamed : isNamed "webhook-service" (.dict service) = true
  · rw [if_pos hnamed, imp_iff_right hnamed, Value.dict.injEq]
    constructor
    · intro h
      rw [← hdescend, ← h, Py.Items.get_set, Value.field_dict, Py.Items.get_set, Value.field_dict,
        Py.Items.get_set]
    · intro h
      obtain ⟨hcl, hsl⟩ := lookup_service hconfig hservice hnamed
      have hnl : service.lookup "namespace" = some namespaceValue :=
        Py.Items.lookup_of_get h (by rintro ⟨⟩)
      rw [Py.Items.set_of_lookup hnl, Py.Items.set_of_lookup hsl, Py.Items.set_of_lookup hcl]
  · rw [if_neg hnamed]
    exact iff_of_true rfl fun h => absurd h hnamed

theorem patchHook_settles : Settles patchHook := by
  intro v w h
  obtain ⟨webhook, config, service, hv, hconfig, hservice⟩ := exists_patchHook.1 ⟨w, h⟩
  rw [patchHook_of_accepted hv hconfig hservice] at h
  split_ifs at h with hnamed
  · cases h
    refine (patchHook_eq_self ⟨_, _, _, rfl, Py.Items.getOr_set _ _ _ _,
      Py.Items.getOr_set _ _ _ _⟩).2 fun _ => ?_
    simp only [Value.descend, List.foldl_cons, List.foldl_nil, Value.field_dict, Py.Items.get_set]
  · cases h
    rw [patchHook_of_accepted hv hconfig hservice, if_neg hnamed]

/-- The metadata is edited when it and the annotations are dictionaries. -/
theorem exists_patchMetadata :
    (∃ u, patchMetadata (List.lookup (Scalar.str "metadata") d) = .ok u) ↔
      ∃ metadata annotations : Items, d.getOr "metadata" (.dict []) = .dict metadata ∧
        metadata.getOr "annotations" (.dict []) = .dict annotations := by
  rw [patchMetadata, defaulted, Value.exists_editItems]
  refine exists_congr fun metadata => ?_
  rw [Py.Dict.exists_edit, annotate, defaulted, Value.exists_editItems]
  constructor
  · rintro ⟨hmetadata, annotations, hannotations, -⟩
    exact ⟨annotations, hmetadata, hannotations⟩
  · rintro ⟨annotations, hmetadata, hannotations⟩
    exact ⟨hmetadata, annotations, hannotations, Py.Dict.exists_edit.2 ⟨injectValue, rfl⟩⟩

theorem stable_annotate : Py.Dict.Stable annotate :=
  Value.stable_defaulted (Value.editItems_settles fun _ _ h =>
    Py.Dict.edit_stable (Py.Dict.stable_const injectValue) h)

theorem stable_patchMetadata : Py.Dict.Stable patchMetadata :=
  Value.stable_defaulted (Value.editItems_settles fun _ _ h => Py.Dict.edit_stable stable_annotate h)

/-- What stands under a key is edited in place and left alone. -/
theorem edit_editItems_eq_self {default : Value} {refusal : Value → Exc}
    {g : Items → Except Exc Items} :
    edit (.str key) (defaulted default (editItems refusal g)) d = .ok d ↔
      ∃ u, d.get key = .dict u ∧ g u = .ok u := by
  rw [Py.Dict.edit_eq_self_iff]
  constructor
  · rintro ⟨u, hu, h⟩
    obtain ⟨e, e', rfl, he, heq⟩ := Value.editItems_eq_ok.1 h
    cases heq
    exact ⟨e, by rw [Items.get, Items.lookup, hu, Option.getD_some], he⟩
  · rintro ⟨u, hu, h⟩
    have hlookup : d.lookup key = some (.dict u) :=
      Py.Items.lookup_of_get hu (by rintro ⟨⟩)
    exact ⟨.dict u, hlookup, Value.editItems_eq_ok.2 ⟨u, u, rfl, h, rfl⟩⟩

theorem edit_const_eq_self {u : Value} (hu : u ≠ .none) :
    edit (.str key) (fun _ => (.ok u : Except Exc Value)) d = .ok d ↔ d.get key = u := by
  rw [Py.Dict.edit_eq_self_iff]
  constructor
  · rintro ⟨v, hv, h⟩
    cases h
    rw [Items.get, Items.lookup, hv, Option.getD_some]
  · intro h
    exact ⟨u, Py.Items.lookup_of_get h hu, rfl⟩

/-- The CA is injected already. -/
theorem edit_metadata_eq_self : edit (.str "metadata") patchMetadata d = .ok d ↔
    (Value.dict d).descend ["metadata", "annotations", injectKey] = injectValue := by
  have hdescend : (Value.dict d).descend ["metadata", "annotations", injectKey] =
      ((d.get "metadata").field "annotations").field injectKey := rfl
  rw [hdescend, patchMetadata, edit_editItems_eq_self]
  simp only [annotate, edit_editItems_eq_self, edit_const_eq_self (u := injectValue) (by rintro ⟨⟩)]
  constructor
  · rintro ⟨metadata, hmetadata, annotations, hannotations, h⟩
    rw [hmetadata, Value.field_dict, hannotations, Value.field_dict, h]
  · intro h
    obtain ⟨annotations, hmetadata, hannotations⟩ := Value.eq_dict_of_field h (by rintro ⟨⟩)
    obtain ⟨metadata, hd, hmetadata⟩ := Value.eq_dict_of_field hmetadata (by rintro ⟨⟩)
    exact ⟨metadata, hd, annotations, hmetadata, hannotations⟩

theorem webhookEdits_stable (d : Items) : ∀ e ∈ webhookEdits d, Py.Dict.Stable e.2 := by
  have hhooks : Py.Dict.Stable (required "webhooks" (editElements patchHook)) :=
    Value.stable_required (Value.editElements_settles patchHook_settles)
  unfold webhookEdits
  split_ifs
  · simp only [List.forall_mem_cons]
    exact ⟨stable_patchMetadata, hhooks, by simp⟩
  · simp only [List.forall_mem_cons]
    exact ⟨stable_patchMetadata, by simp⟩

theorem webhookEdits_keys (d : Items) : (webhookEdits d).Pairwise fun e e' => e.1 ≠ e'.1 := by
  unfold webhookEdits
  split_ifs <;> simp

theorem webhookEdits_keeps (d : Items) :
    (webhookEdits d).Pairwise fun e e' => e.1 ≠ e'.1 ∨ Py.Dict.Keeps e.2 e'.2 :=
  (webhookEdits_keys d).imp .inl

/-- The loop over the webhooks. -/
theorem webhooks_cases (d : Items) :
    d.lookup "webhooks" = none ∧ webhookEdits d = [(.str "metadata", patchMetadata)] ∨
      ∃ u, d.lookup "webhooks" = some u ∧ webhookEdits d = [(.str "metadata", patchMetadata),
        (.str "webhooks", required "webhooks" (editElements patchHook))] := by
  unfold webhookEdits
  cases hlookup : d.lookup "webhooks" with
  | none => exact .inl ⟨rfl, rfl⟩
  | some u => exact .inr ⟨u, rfl, rfl⟩

/-- **Which documents are accepted**. -/
theorem exists_patchWebhook : (∃ w, patchWebhook v = .ok w) ↔ Accepted v := by
  have hedits : ∀ d : Items, (∃ d', editAll (webhookEdits d) d = .ok d') ↔
      (∃ metadata annotations : Items, d.getOr "metadata" (.dict []) = .dict metadata ∧
        metadata.getOr "annotations" (.dict []) = .dict annotations) ∧
      ∃ webhooks, (d.getOr "webhooks" (.list [])).iterate = .ok webhooks ∧
        ∀ webhook ∈ webhooks, HookAccepted webhook := by
    intro d
    rw [Py.Dict.exists_editAll (webhookEdits_keys d), ← exists_patchMetadata]
    rcases webhooks_cases d with ⟨hlookup, hedits⟩ | ⟨u, hlookup, hedits⟩
    · rw [hedits, List.forall_mem_singleton, Items.getOr, hlookup]
      exact (and_iff_left ⟨[], rfl, fun x hx => absurd hx List.not_mem_nil⟩).symm
    · rw [hedits, List.forall_mem_cons, List.forall_mem_singleton, Items.getOr, hlookup]
      have hrequired : List.lookup (Scalar.str "webhooks") d = some u := hlookup
      simp only [hrequired, required, Value.exists_editElements, exists_patchHook, Option.getD_some]
  constructor
  · rintro ⟨w, h⟩
    obtain ⟨d, hd, h⟩ := bind_eq_ok.1 h
    obtain ⟨kind, hkind, h⟩ := bind_eq_ok.1 h
    refine ⟨d, kind, Value.items_eq_ok.1 hd, Value.hashed_eq_ok.1 hkind, fun hconf => ?_⟩
    rw [if_pos hconf] at h
    obtain ⟨d', hd', -⟩ := map_eq_ok.1 h
    exact (hedits d).1 ⟨d', hd'⟩
  · rintro ⟨d, kind, hd, hkind, hconf⟩
    have hrest : ∃ w, (if isConfiguration v then (editAll (webhookEdits d) d).map .dict else .ok v) =
        .ok w := by
      split_ifs with hc
      · obtain ⟨d', hd'⟩ := (hedits d).2 (hconf hc)
        exact ⟨.dict d', map_eq_ok.2 ⟨d', hd', rfl⟩⟩
      · exact ⟨v, rfl⟩
    obtain ⟨w, hw⟩ := hrest
    exact ⟨w, bind_eq_ok.2 ⟨d, Value.items_eq_ok.2 hd, bind_eq_ok.2 ⟨kind, Value.hashed_eq_ok.2 hkind,
      hw⟩⟩⟩

/-- What becomes of a document. -/
theorem patchWebhook_of_dict {kind : Scalar} (hkind : d.get "kind" = .scalar kind) :
    patchWebhook (.dict d) = if isConfiguration (.dict d) then
      (editAll (webhookEdits d) d).map .dict else .ok (.dict d) := by
  have hhashed : (d.get "kind").hashed = .ok kind := Value.hashed_eq_ok.2 hkind
  change ((d.get "kind").hashed.bind fun _ => _) = _
  rw [hhashed]
  rfl

/-- **An accepted document that is left alone**. -/
theorem patchWebhook_eq_self (h : Accepted v) :
    patchWebhook v = .ok v ↔ (isConfiguration v = true → Prepared v) := by
  obtain ⟨d, kind, rfl, hkind, hconf⟩ := h
  rw [patchWebhook_of_dict hkind]
  by_cases hc : isConfiguration (.dict d) = true
  · rw [if_pos hc, imp_iff_right hc, map_eq_ok]
    simp only [Value.dict.injEq, exists_eq_right]
    rw [Py.Dict.editAll_eq_self_iff (webhookEdits_stable d) (webhookEdits_keeps d), Prepared,
      ← edit_metadata_eq_self, Value.field_dict, Items.get]
    obtain ⟨-, webhooks, hiterate, hhooks⟩ := hconf hc
    rcases webhooks_cases d with ⟨hlookup, hedits⟩ | ⟨u, hlookup, hedits⟩
    · rw [hedits, List.forall_mem_singleton, hlookup]
      exact (and_iff_left fun x hx => absurd hx List.not_mem_nil).symm
    · rw [hedits, List.forall_mem_cons, List.forall_mem_singleton, hlookup, Option.getD_some]
      refine and_congr_right fun _ => ?_
      rw [Items.getOr, hlookup, Option.getD_some] at hiterate
      have hedit : editElements patchHook u = .ok u ↔ ∀ x ∈ u.elements, HookPrepared x := by
        rw [Value.editElements_eq_self (Value.exists_editElements.2
          ⟨webhooks, hiterate, fun x hx => exists_patchHook.2 (hhooks x hx)⟩)]
        exact forall₂_congr fun x hx => patchHook_eq_self (hhooks x (Value.mem_iterate hiterate hx))
      rw [← hedit, Py.Dict.edit_eq_self_iff]
      have hrequired : List.lookup (Scalar.str "webhooks") d = some u := hlookup
      simp only [hrequired, Option.some.injEq, exists_eq_left', required]
  · rw [if_neg hc]
    exact iff_of_true rfl fun h => absurd h hc

/-- **A document of the webhook manifest that has been edited** is left alone. -/
theorem patchWebhook_settles : Settles patchWebhook := by
  intro v w h
  obtain ⟨d, kind, rfl, hkind, -⟩ := exists_patchWebhook.1 ⟨w, h⟩
  rw [patchWebhook_of_dict hkind] at h
  split_ifs at h with hc
  · obtain ⟨d', hd', rfl⟩ := map_eq_ok.1 h
    have hleft := Py.Dict.edit_of_editAll (webhookEdits_stable d) (webhookEdits_keeps d) hd'
    have hkey : ∀ e ∈ webhookEdits d, Scalar.str "kind" ≠ e.1 := by
      rcases webhooks_cases d with ⟨-, hedits⟩ | ⟨u, -, hedits⟩ <;> simp [hedits]
    have hkind' : (Value.dict d').field "kind" = (Value.dict d).field "kind" := by
      rw [Value.field_dict, Value.field_dict, Items.get, Items.lookup, Py.Dict.lookup_editAll hkey hd',
        Items.get, Items.lookup]
    -- the webhooks are there when they were before
    have hedits : webhookEdits d' = webhookEdits d := by
      rcases webhooks_cases d with ⟨hlookup, hedits⟩ | ⟨u, hlookup, hedits⟩
      · have hnone : Items.lookup d' "webhooks" = none :=
          (Py.Dict.lookup_editAll (by simp [hedits]) hd').trans hlookup
        rw [hedits, webhookEdits, hnone]
        rfl
      · simp only [hedits, List.forall_mem_cons] at hleft
        obtain ⟨u', hu', -⟩ := Py.Dict.edit_eq_self_iff.1 hleft.2.1
        have hsome : Items.lookup d' "webhooks" = some u' := hu'
        rw [hedits, webhookEdits, hsome]
        rfl
    rw [patchWebhook_of_dict (hkind'.trans hkind), isConfiguration, hkind', hedits]
    refine (if_pos hc).trans (map_eq_ok.2 ⟨d', ?_, rfl⟩)
    exact Py.Dict.editAll_settles (webhookEdits_stable d) (webhookEdits_keeps d) d d' hd'
  · cases h
    rw [patchWebhook_of_dict hkind, if_neg hc]

end Webhooks

end Provider

end Management
