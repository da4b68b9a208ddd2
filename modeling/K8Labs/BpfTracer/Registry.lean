import Mathlib.Data.List.AList

/-!
# The registry of the tracer

`metrics.rs`, and the update of `run_discovery` in `main.rs`: three maps with the UIDs of Pods as
their keys.

* `lookup_update` : what an update leaves registered.
* `Consistent.update` : an update keeps the keys of the three maps together.
-/

namespace BpfTracer

/-- A string, as its characters. -/
abbrev Text := List Char

/-- A path, as its components. -/
abbrev Path := List Text

/-- `HashMap<String, _>`; nothing depends on the order of the keys. -/
abbrev UidMap (α : Type) := AList fun _ : Text => α

/-- `QoSClass`. -/
inductive QoSClass
  | bestEffort
  | burstable
  | guaranteed
  deriving DecidableEq

/-- `PodInfo`. -/
structure PodInfo where
  uid : Text
  qos : QoSClass
  cgroupPath : Path
  deriving DecidableEq

/-- `CgroupMetrics`. -/
structure CgroupMetrics where
  usageUsec : ℕ
  userUsec : ℕ
  systemUsec : ℕ
  nrPeriods : ℕ
  nrThrottled : ℕ
  throttledUsec : ℕ
  nrBursts : ℕ
  burstUsec : ℕ
  deriving DecidableEq

/-- `ThrottleEvent`. -/
structure ThrottleEvent where
  timestampMs : ℕ
  comm : Text
  pid : ℕ
  throttledUsec : ℕ
  deriving DecidableEq

/-- `MetricsRegistry`: three maps by UID. -/
structure MetricsRegistry where
  pods : UidMap PodInfo
  metrics : UidMap CgroupMetrics
  throttleEvents : UidMap (List ThrottleEvent)

namespace MetricsRegistry

/-- `MetricsRegistry::new`. -/
def new : MetricsRegistry := ⟨∅, ∅, ∅⟩

/-- `add_pod`: the Pod, with no events yet. -/
def addPod (registry : MetricsRegistry) (pod : PodInfo) : MetricsRegistry :=
  { registry with
    pods := registry.pods.insert pod.uid pod
    throttleEvents := registry.throttleEvents.insert pod.uid [] }

/-- `remove_pod`, from all three maps. -/
def removePod (registry : MetricsRegistry) (uid : Text) : MetricsRegistry where
  pods := registry.pods.erase uid
  metrics := registry.metrics.erase uid
  throttleEvents := registry.throttleEvents.erase uid

/-- `get_pod`. -/
def getPod (registry : MetricsRegistry) (uid : Text) : Option PodInfo := registry.pods.lookup uid

/-- `list_pods`. -/
def listPods (registry : MetricsRegistry) : List Text := registry.pods.keys

/-- `update_metrics`, also for a UID that is not registered. -/
def updateMetrics (registry : MetricsRegistry) (uid : Text) (metrics : CgroupMetrics) :
    MetricsRegistry :=
  { registry with metrics := registry.metrics.insert uid metrics }

/-- `add_throttle_event`: only where the UID has a list of events. -/
def addThrottleEvent (registry : MetricsRegistry) (uid : Text) (event : ThrottleEvent) :
    MetricsRegistry :=
  match registry.throttleEvents.lookup uid with
  | some events =>
    { registry with throttleEvents := registry.throttleEvents.insert uid (events ++ [event]) }
  | none => registry

/-- "Add new pods", for one of them. -/
def addNew (registry : MetricsRegistry) (pod : PodInfo) : MetricsRegistry :=
  if pod.uid ∈ registry.pods then registry else registry.addPod pod

/-- "Remove terminated pods", for one that is registered. -/
def removeGone (discovered : UidMap PodInfo) (registry : MetricsRegistry) (uid : Text) :
    MetricsRegistry :=
  if uid ∈ discovered then registry else registry.removePod uid

/-- The lock section of `run_discovery`. -/
def update (registry : MetricsRegistry) (discovered : UidMap PodInfo) : MetricsRegistry :=
  let added := (discovered.entries.map Sigma.snd).foldl addNew registry
  added.listPods.foldl (removeGone discovered) added

end MetricsRegistry

/-! ### Maps -/

section Maps

variable {α : Type} {m : UidMap α}

theorem lookup_insert_eq (uid key : Text) (a : α) (m : UidMap α) :
    (m.insert key a).lookup uid = if uid = key then some a else m.lookup uid := by
  split_ifs with h
  · rw [h, AList.lookup_insert]
  · exact AList.lookup_insert_ne h

theorem lookup_erase_eq (uid key : Text) (m : UidMap α) :
    (m.erase key).lookup uid = if uid = key then none else m.lookup uid := by
  split_ifs with h
  · rw [h, AList.lookup_erase]
  · exact AList.lookup_erase_ne h

/-- Every entry is filed under its own key. -/
def Keyed (m : UidMap PodInfo) : Prop := ∀ uid, ∀ pod ∈ m.lookup uid, pod.uid = uid

theorem mem_entries_map {m : UidMap PodInfo} (hm : Keyed m) {pod : PodInfo} :
    pod ∈ m.entries.map Sigma.snd ↔ m.lookup pod.uid = some pod := by
  constructor
  · intro h
    obtain ⟨⟨uid, pod⟩, hentry, rfl⟩ := List.mem_map.1 h
    have hlookup : pod ∈ m.lookup uid := AList.mem_lookup_iff.2 hentry
    rw [hm uid pod hlookup]
    exact hlookup
  · intro h
    exact List.mem_map.2 ⟨⟨pod.uid, pod⟩, AList.mem_lookup_iff.1 h, rfl⟩

end Maps

/-! ### Updates -/

namespace MetricsRegistry

variable {registry : MetricsRegistry} {discovered : UidMap PodInfo} {pods : List PodInfo}
  {uid : Text}

theorem lookup_foldl_addNew :
    (pods.foldl addNew registry).pods.lookup uid =
      (registry.pods.lookup uid).or (pods.find? fun pod => pod.uid = uid) := by
  induction pods generalizing registry with
  | nil => rw [List.foldl_nil, List.find?_nil, Option.or_none]
  | cons pod pods ih =>
    rw [List.foldl_cons, ih, addNew, List.find?_cons]
    by_cases hmem : pod.uid ∈ registry.pods
    · rw [if_pos hmem]
      by_cases huid : pod.uid = uid
      · obtain ⟨old, hold⟩ := Option.isSome_iff_exists.1 (AList.lookup_isSome.2 hmem)
        rw [huid] at hold
        rw [hold]
        rfl
      · simp [huid]
    · rw [if_neg hmem, addPod, lookup_insert_eq]
      by_cases huid : pod.uid = uid
      · rw [← huid, if_pos rfl, AList.lookup_eq_none.2 hmem]
        simp
      · simp [huid, Ne.symm huid]

theorem lookup_foldl_removeGone {uids : List Text} :
    (uids.foldl (removeGone discovered) registry).pods.lookup uid =
      if uid ∈ uids ∧ uid ∉ discovered then none else registry.pods.lookup uid := by
  induction uids generalizing registry with
  | nil => simp
  | cons first uids ih =>
    rw [List.foldl_cons, ih, removeGone]
    by_cases hfirst : first ∈ discovered
    · rw [if_pos hfirst]
      by_cases huid : uid = first
      · simp [huid, hfirst]
      · simp [huid]
    · rw [if_neg hfirst, removePod, lookup_erase_eq]
      by_cases huid : uid = first
      · simp [huid, hfirst]
      · simp [huid]

/-- **An update** registers what was discovered, keeps what it knows of it, and nothing else. -/
theorem lookup_update (hdiscovered : Keyed discovered) :
    (registry.update discovered).pods.lookup uid =
      if uid ∈ discovered then (registry.pods.lookup uid).or (discovered.lookup uid) else none := by
  -- the pods are listed without their keys, which they carry
  have hfind : ((discovered.entries.map Sigma.snd).find? fun pod => pod.uid = uid) =
      discovered.lookup uid := by
    cases hlookup : discovered.lookup uid with
    | none =>
      rw [List.find?_eq_none]
      intro pod hpod huid
      have huid := of_decide_eq_true huid
      rw [mem_entries_map hdiscovered, huid, hlookup] at hpod
      cases hpod
    | some pod =>
      have huid : pod.uid = uid := hdiscovered uid pod hlookup
      cases hfound : (discovered.entries.map Sigma.snd).find? fun pod => pod.uid = uid with
      | none =>
        rw [List.find?_eq_none] at hfound
        have hmem : pod ∈ discovered.entries.map Sigma.snd := by
          rw [mem_entries_map hdiscovered, huid, hlookup]
        exact absurd (decide_eq_true huid) (hfound pod hmem)
      | some found =>
        have hmem := (mem_entries_map hdiscovered).1 (List.mem_of_find?_eq_some hfound)
        have hdecide : decide (found.uid = uid) = true :=
          List.find?_some (p := fun pod : PodInfo => decide (pod.uid = uid)) hfound
        have heq : found.uid = uid := of_decide_eq_true hdecide
        rw [heq, hlookup] at hmem
        exact hmem.symm
  rw [update, lookup_foldl_removeGone, lookup_foldl_addNew, hfind, listPods]
  by_cases huid : uid ∈ discovered
  · simp [huid]
  · have hnone : discovered.lookup uid = none := AList.lookup_eq_none.2 huid
    rw [if_neg huid, hnone, Option.or_none]
    split_ifs with h
    · rfl
    · rw [AList.lookup_eq_none]
      intro hmem
      refine h ⟨AList.mem_keys.1 (AList.lookup_isSome.1 ?_), huid⟩
      rw [lookup_foldl_addNew, hfind, hnone, Option.or_none]
      exact AList.lookup_isSome.2 hmem

/-- What adding and removing a Pod keep, an update keeps. -/
theorem update_invariant {P : MetricsRegistry → Prop}
    (hadd : ∀ r, ∀ pod ∈ discovered.entries.map Sigma.snd, P r → P (r.addPod pod))
    (hremove : ∀ r uid, P r → P (r.removePod uid)) (h : P registry) :
    P (registry.update discovered) := by
  refine List.foldlRecOn _ _ (List.foldlRecOn _ _ h fun r hr pod hpod => ?_) fun r hr uid _ => ?_
  · unfold addNew
    split_ifs
    · exact hr
    · exact hadd r pod hpod hr
  · unfold removeGone
    split_ifs
    · exact hr
    · exact hremove r uid hr

/-! ### The keys of the three maps -/

/-- Nothing is kept for a Pod that is not registered, and every Pod has a list of events. -/
structure Consistent (registry : MetricsRegistry) : Prop where
  metrics : ∀ uid ∈ registry.metrics, uid ∈ registry.pods
  throttleEvents : ∀ uid, uid ∈ registry.throttleEvents ↔ uid ∈ registry.pods

theorem consistent_new : Consistent new where
  metrics _ h := absurd h (AList.notMem_empty _)
  throttleEvents _ := Iff.rfl

variable (h : Consistent registry)

include h

theorem Consistent.addPod (pod : PodInfo) : Consistent (registry.addPod pod) where
  metrics uid huid := (AList.mem_insert _).2 (.inr (h.metrics uid huid))
  throttleEvents uid := by
    show uid ∈ registry.throttleEvents.insert _ _ ↔ uid ∈ registry.pods.insert _ _
    rw [AList.mem_insert, AList.mem_insert, h.throttleEvents]

theorem Consistent.removePod (uid : Text) : Consistent (registry.removePod uid) where
  metrics key hkey := by
    obtain ⟨hne, hmem⟩ := AList.mem_erase.1 hkey
    exact AList.mem_erase.2 ⟨hne, h.metrics key hmem⟩
  throttleEvents key := by
    show key ∈ registry.throttleEvents.erase _ ↔ key ∈ registry.pods.erase _
    rw [AList.mem_erase, AList.mem_erase, h.throttleEvents]

theorem Consistent.addThrottleEvent (uid : Text) (event : ThrottleEvent) :
    Consistent (registry.addThrottleEvent uid event) := by
  unfold MetricsRegistry.addThrottleEvent
  cases hlookup : registry.throttleEvents.lookup uid with
  | none => exact h
  | some events =>
    have hmem : uid ∈ registry.throttleEvents := by
      rw [← AList.lookup_isSome, hlookup]
      rfl
    refine ⟨h.metrics, fun key => ?_⟩
    dsimp only
    rw [AList.mem_insert, ← h.throttleEvents]
    exact ⟨fun hkey => hkey.elim (fun heq => heq ▸ hmem) id, .inr⟩

/-- Metrics may be written for a Pod that is registered, and for no other. -/
theorem Consistent.updateMetrics_iff (uid : Text) (metrics : CgroupMetrics) :
    Consistent (registry.updateMetrics uid metrics) ↔ uid ∈ registry.pods := by
  constructor
  · exact fun hnew => hnew.metrics uid ((AList.mem_insert _).2 (.inl rfl))
  · intro huid
    refine ⟨fun key hkey => ?_, h.throttleEvents⟩
    rcases (AList.mem_insert _).1 hkey with rfl | hkey
    · exact huid
    · exact h.metrics key hkey

/-- **An update keeps the keys together.** -/
theorem Consistent.update (discovered : UidMap PodInfo) :
    Consistent (registry.update discovered) :=
  update_invariant (fun _ pod _ hr => hr.addPod pod) (fun _ uid hr => hr.removePod uid) h

end MetricsRegistry

end BpfTracer
