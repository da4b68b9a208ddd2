import K8Labs.BpfTracer.Discovery
import K8Labs.BpfTracer.Events
import Mathlib.Data.List.Induction

/-!
# The tasks of the tracer

`run_discovery`, `run_collection` and `run_tracer` share the registry.  A lock section is one step,
and so is what a task does between two of them; the steps of the tasks come in any order (`Action`,
`step`).

* `consistent_iff` : the keys of the three maps are together after every step exactly when no
  metrics are written for a Pod that was removed since its file was read.
* `never_recorded` : an event of a process in a container is not recorded.
-/

namespace BpfTracer

/-! ### Steps -/

/-- Where `run_collection` is. -/
inductive Collection
  /-- Before the next Pod of its list. -/
  | listed (uids : List Text)
  /-- Reading `cpu.stat` of a Pod. -/
  | reading (uid : Text) (pod : PodInfo) (uids : List Text)

/-- Where `run_tracer` is. -/
inductive Tracer
  | waiting
  /-- Before the list of the Pods. -/
  | parsed (event : ThrottleEvent)
  | listed (event : ThrottleEvent) (uids : List Text)
  /-- Reading `cgroup.procs` of a Pod. -/
  | reading (event : ThrottleEvent) (uid : Text) (pod : PodInfo) (uids : List Text)
  | found (event : ThrottleEvent) (uid : Text)
  deriving DecidableEq

structure State where
  registry : MetricsRegistry
  collection : Collection
  headerSeen : Bool
  tracer : Tracer

def State.start : State := ⟨.new, .listed [], false, .waiting⟩

/-- What happens next; a list of Pods comes in the order of the map, which is any, and a file that
cannot be read has no content. -/
inductive Action
  | discover (readDir : Path → Option (List Entry))
  | collectList (uids : List Text)
  | collectGet
  | collectWrite (stat : Option CgroupMetrics)
  | readLine (line : Text)
  | tracerList (uids : List Text)
  | tracerGet
  | tracerProcs (content : Option Text)
  | tracerWrite

/-- `run_tracer` on a line: an event, or nothing to look up. -/
def readLine (state : State) (line : Text) : State :=
  let line := trim line
  if line = [] then state
  else if state.headerSeen = false ∧ "timestamp_ms".toList <+: line then
    { state with headerSeen := true }
  else
    match parseThrottleEvent line with
    | some event => { state with tracer := .parsed event }
    | none => state

/-- A step; what a task is not about to do changes nothing. -/
def step (root : Path) (state : State) : Action → State
  | .discover readDir => { state with registry := runDiscovery root state.registry readDir }
  | .collectList uids =>
    match state.collection with
    | .listed [] =>
      if uids.Perm state.registry.listPods then { state with collection := .listed uids } else state
    | _ => state
  | .collectGet =>
    match state.collection with
    | .listed (uid :: uids) =>
      match state.registry.getPod uid with
      | some pod => { state with collection := .reading uid pod uids }
      | none => { state with collection := .listed uids }
    | _ => state
  | .collectWrite stat =>
    match state.collection with
    | .reading uid _ uids =>
      match stat with
      | some metrics =>
        { state with
          registry := state.registry.updateMetrics uid metrics
          collection := .listed uids }
      | none => { state with collection := .listed uids }
    | _ => state
  | .readLine line =>
    match state.tracer with
    | .waiting => readLine state line
    | _ => state
  | .tracerList uids =>
    match state.tracer with
    | .parsed event =>
      if uids.Perm state.registry.listPods then { state with tracer := .listed event uids } else state
    | _ => state
  | .tracerGet =>
    match state.tracer with
    | .listed event (uid :: uids) =>
      match state.registry.getPod uid with
      | some pod => { state with tracer := .reading event uid pod uids }
      | none => { state with tracer := .listed event uids }
    | .listed _ [] => { state with tracer := .waiting }
    | _ => state
  | .tracerProcs content =>
    match state.tracer with
    | .reading event uid _ uids =>
      if event.pid ∈ (content.map readProcs).getD [] then { state with tracer := .found event uid }
      else { state with tracer := .listed event uids }
    | _ => state
  | .tracerWrite =>
    match state.tracer with
    | .found event uid =>
      { state with registry := state.registry.addThrottleEvent uid event, tracer := .waiting }
    | _ => state

/-- The state after some steps. -/
def after (root : Path) (actions : List Action) : State := actions.foldl (step root) .start

variable {root : Path} {state : State} {actions : List Action} {action : Action}

theorem after_concat : after root (actions ++ [action]) = step root (after root actions) action := by
  rw [after, List.foldl_append, List.foldl_cons, List.foldl_nil, after]

/-- What holds at the start and is kept by every step that the run takes holds after the run. -/
theorem after_invariant (P : State → Prop) (allowed : State → Action → Prop) (hstart : P .start)
    (hstep : ∀ state action, P state → allowed state action → P (step root state action))
    (hallowed : ∀ before action, before ++ [action] <+: actions →
      allowed (after root before) action) : P (after root actions) := by
  induction actions using List.reverseRecOn with
  | nil => exact hstart
  | append_singleton actions action ih =>
    rw [after_concat]
    refine hstep _ _ (ih fun before next hstarts => ?_) (hallowed actions action List.prefix_rfl)
    exact hallowed before next (hstarts.trans (List.prefix_append _ _))

/-! ### The keys of the three maps -/

/-- Metrics are written for a Pod that is registered. -/
def WritesRegistered (state : State) : Action → Prop
  | .collectWrite (some _) => ∀ uid pod uids, state.collection = .reading uid pod uids →
    uid ∈ state.registry.pods
  | _ => True

/-- The registry changes in three kinds of steps. -/
theorem step_registry (root : Path) (state : State) (action : Action) :
    WritesRegistered state action ∧
      ((step root state action).registry = state.registry ∨
        (∃ readDir, (step root state action).registry = runDiscovery root state.registry readDir) ∨
        ∃ event uid, state.tracer = .found event uid ∧
          (step root state action).registry = state.registry.addThrottleEvent uid event) ∨
    ∃ uid pod uids metrics, action = .collectWrite (some metrics) ∧
      state.collection = .reading uid pod uids ∧
      (step root state action).registry = state.registry.updateMetrics uid metrics := by
  cases action with
  | discover readDir => exact .inl ⟨trivial, .inr (.inl ⟨readDir, rfl⟩)⟩
  | collectList uids =>
    refine .inl ⟨trivial, .inl ?_⟩
    simp only [step]
    split <;> [split_ifs; skip] <;> rfl
  | collectGet =>
    refine .inl ⟨trivial, .inl ?_⟩
    simp only [step]
    split <;> [split; skip] <;> rfl
  | collectWrite stat =>
    -- the one write that does not ask whether the pod is still registered
    cases stat with
    | none =>
      refine .inl ⟨trivial, .inl ?_⟩
      simp only [step]
      split <;> rfl
    | some metrics =>
      cases hcollection : state.collection with
      | listed uids =>
        refine .inl ⟨fun uid pod uids h => ?_, .inl ?_⟩
        · rw [hcollection] at h
          cases h
        · simp only [step, hcollection]
      | reading uid pod uids =>
        refine .inr ⟨uid, pod, uids, metrics, rfl, rfl, ?_⟩
        simp only [step, hcollection]
  | readLine line =>
    refine .inl ⟨trivial, .inl ?_⟩
    simp only [step, readLine]
    split <;> [(split_ifs <;> [skip; skip; split]); skip] <;> rfl
  | tracerList uids =>
    refine .inl ⟨trivial, .inl ?_⟩
    simp only [step]
    split <;> [split_ifs; skip] <;> rfl
  | tracerGet =>
    refine .inl ⟨trivial, .inl ?_⟩
    simp only [step]
    split <;> [split; skip; skip] <;> rfl
  | tracerProcs content =>
    refine .inl ⟨trivial, .inl ?_⟩
    simp only [step]
    split <;> [split_ifs; skip] <;> rfl
  | tracerWrite =>
    refine .inl ⟨trivial, ?_⟩
    simp only [step]
    split
    · next event uid htracer => exact .inr (.inr ⟨event, uid, htracer, rfl⟩)
    · exact .inl rfl

/-- A step keeps the keys together exactly when it writes no metrics for a removed Pod. -/
theorem consistent_step_iff (h : state.registry.Consistent) :
    (step root state action).registry.Consistent ↔ WritesRegistered state action := by
  rcases step_registry root state action with ⟨hwrites, hregistry⟩ |
    ⟨uid, pod, uids, metrics, rfl, hcollection, hregistry⟩
  · refine iff_of_true ?_ hwrites
    rcases hregistry with heq | ⟨readDir, heq⟩ | ⟨event, uid, -, heq⟩
    · rw [heq]
      exact h
    · rw [heq]
      exact h.update _
    · rw [heq]
      exact h.addThrottleEvent uid event
  · rw [hregistry, h.updateMetrics_iff]
    constructor
    · rintro huid uid' pod' uids' hreading
      rw [hcollection] at hreading
      cases hreading
      exact huid
    · exact fun hwrites => hwrites uid pod uids hcollection

/-- **The keys of the three maps** are together after every step of a run exactly when the run
writes no metrics for a Pod that is not registered any more. -/
theorem consistent_iff (root : Path) (actions : List Action) :
    (∀ before, before <+: actions → (after root before).registry.Consistent) ↔
      ∀ before action, before ++ [action] <+: actions →
        WritesRegistered (after root before) action := by
  constructor
  · intro h before action hprefix
    have hnext := h _ hprefix
    rw [after_concat] at hnext
    exact (consistent_step_iff (h before ((List.prefix_append _ _).trans hprefix))).1 hnext
  · intro h before hprefix
    refine after_invariant (fun state => state.registry.Consistent) WritesRegistered
      MetricsRegistry.consistent_new (fun _ _ hstate hallowed => ?_)
      fun earlier action hearlier => h earlier action (hearlier.trans hprefix)
    exact (consistent_step_iff hstate).2 hallowed

/-- A directory with the slice of one Pod, whose UID is a letter. -/
def onePod : Path → Option (List Entry) :=
  (loneNode .burstable ['a'] ⟨by decide, List.all_eq_true.1 (by decide)⟩).readDir

/-- The Pod is removed between the reading of its file and the writing of its metrics. -/
theorem removed_while_reading : ¬ ∀ before, before <+:
    [.discover onePod, .collectList [['a']], .collectGet, .discover fun _ => none,
      .collectWrite (some ⟨0, 0, 0, 0, 0, 0, 0, 0⟩)] →
      (after [] before).registry.Consistent := by
  intro h
  have hmetrics := (h _ List.prefix_rfl).metrics ['a'] (by decide)
  exact absurd hmetrics (by decide)

/-! ### Processes in containers -/

/-- `cgroup.procs` of a Pod lists processes of the Pod's own cgroup; `home` is the cgroup that a
process lives in. -/
def Honest (home : ℕ → Path) (state : State) : Action → Prop
  | .tracerProcs (some content) => ∀ event uid pod uids,
    state.tracer = .reading event uid pod uids → ∀ pid ∈ readProcs content, home pid = pod.cgroupPath
  | _ => True

/-- A cgroup where the slices of Pods are. -/
def AtSlice (root path : Path) : Prop := path.length = root.length + 3

/-- The Pods of a registry are slices, and so are the cgroups of the processes with an event. -/
structure AllAtSlice (root : Path) (home : ℕ → Path) (registry : MetricsRegistry) : Prop where
  pods : ∀ uid, ∀ pod ∈ registry.getPod uid, AtSlice root pod.cgroupPath
  events : ∀ uid, ∀ events ∈ registry.throttleEvents.lookup uid, ∀ event ∈ events,
    AtSlice root (home event.pid)

/-- What the lookup has found by now. -/
def LooksAtSlice (root : Path) (home : ℕ → Path) : Tracer → Prop
  | .reading _ _ pod _ => AtSlice root pod.cgroupPath
  | .found event _ => AtSlice root (home event.pid)
  | _ => True

section Containers

variable {home : ℕ → Path} {registry : MetricsRegistry}

theorem atSlice_of_mem_candidates {readDir : Path → Option (List Entry)} {pod : PodInfo}
    (h : pod ∈ candidates root readDir) : AtSlice root pod.cgroupPath := by
  obtain ⟨qos, -, h⟩ := List.mem_flatMap.1 h
  obtain ⟨entry, -, h⟩ := List.mem_filterMap.1 h
  unfold discover at h
  split_ifs at h
  obtain ⟨found, -, rfl⟩ := Option.map_eq_some_iff.1 h
  simp [AtSlice, qosSlice, kubeletCgroup]

theorem atSlice_of_discovered {readDir : Path → Option (List Entry)} {pod : PodInfo}
    (h : pod ∈ (discoveredPods root readDir).entries.map Sigma.snd) :
    AtSlice root pod.cgroupPath := by
  obtain ⟨⟨uid, pod⟩, hentry, rfl⟩ := List.mem_map.1 h
  have hlookup : (discoveredPods root readDir).lookup uid = some pod :=
    AList.mem_lookup_iff.2 hentry
  rcases of_lookup_foldl_insert hlookup with hnone | ⟨hmem, -⟩
  · cases hnone
  · exact atSlice_of_mem_candidates hmem

theorem allAtSlice_new : AllAtSlice root home .new where
  pods _ _ hpod := nomatch hpod
  events _ _ hevents := nomatch hevents

theorem AllAtSlice.addPod (h : AllAtSlice root home registry) {pod : PodInfo}
    (hpod : AtSlice root pod.cgroupPath) : AllAtSlice root home (registry.addPod pod) where
  pods uid found hfound := by
    rw [MetricsRegistry.getPod, MetricsRegistry.addPod, lookup_insert_eq] at hfound
    split_ifs at hfound
    · cases hfound
      exact hpod
    · exact h.pods uid found hfound
  events uid events hevents := by
    rw [MetricsRegistry.addPod, lookup_insert_eq] at hevents
    split_ifs at hevents
    · cases hevents
      exact fun _ hmem => absurd hmem List.not_mem_nil
    · exact h.events uid events hevents

theorem AllAtSlice.removePod (h : AllAtSlice root home registry) (key : Text) :
    AllAtSlice root home (registry.removePod key) where
  pods uid found hfound := by
    rw [MetricsRegistry.getPod, MetricsRegistry.removePod, lookup_erase_eq] at hfound
    split_ifs at hfound
    · cases hfound
    · exact h.pods uid found hfound
  events uid events hevents := by
    rw [MetricsRegistry.removePod, lookup_erase_eq] at hevents
    split_ifs at hevents
    · cases hevents
    · exact h.events uid events hevents

theorem AllAtSlice.addThrottleEvent (h : AllAtSlice root home registry) {event : ThrottleEvent}
    (hevent : AtSlice root (home event.pid)) (key : Text) :
    AllAtSlice root home (registry.addThrottleEvent key event) := by
  unfold MetricsRegistry.addThrottleEvent
  split
  · next earlier hearlier =>
    refine ⟨h.pods, fun uid events hevents next hnext => ?_⟩
    dsimp only at hevents
    rw [lookup_insert_eq] at hevents
    split_ifs at hevents
    · cases hevents
      rcases List.mem_append.1 hnext with hmem | hmem
      · exact h.events key earlier hearlier next hmem
      · rw [List.mem_singleton.1 hmem]
        exact hevent
    · exact h.events uid events hevents next hnext
  · exact h

theorem AllAtSlice.step (h : AllAtSlice root home state.registry)
    (htracer : LooksAtSlice root home state.tracer) (action : Action) :
    AllAtSlice root home (step root state action).registry := by
  rcases step_registry root state action with ⟨-, heq | ⟨readDir, heq⟩ | ⟨event, uid, hfound, heq⟩⟩ |
    ⟨uid, pod, uids, metrics, -, -, heq⟩
  · rw [heq]
    exact h
  · rw [heq]
    exact MetricsRegistry.update_invariant
      (fun _ _ hpod hregistry => hregistry.addPod (atSlice_of_discovered hpod))
      (fun _ uid hregistry => hregistry.removePod uid) h
  · rw [heq]
    rw [hfound] at htracer
    exact h.addThrottleEvent htracer uid
  · rw [heq]
    exact ⟨h.pods, h.events⟩

theorem looksAtSlice_step (h : AllAtSlice root home state.registry)
    (htracer : LooksAtSlice root home state.tracer) (hhonest : Honest home state action) :
    LooksAtSlice root home (step root state action).tracer := by
  cases action with
  | discover readDir => exact htracer
  | collectList uids =>
    simp only [step]
    split <;> [split_ifs; skip] <;> exact htracer
  | collectGet =>
    simp only [step]
    split <;> [split; skip] <;> exact htracer
  | collectWrite stat =>
    simp only [step]
    split <;> [split; skip] <;> exact htracer
  | readLine line =>
    simp only [step, readLine]
    split
    · split_ifs
      · exact htracer
      · exact htracer
      · split
        · exact trivial
        · exact htracer
    · exact htracer
  | tracerList uids =>
    simp only [step]
    split
    · split_ifs
      · exact trivial
      · exact htracer
    · exact htracer
  | tracerGet =>
    simp only [step]
    split
    · next event uid uids _ =>
      split
      · next pod hpod => exact h.pods uid pod hpod
      · exact trivial
    · exact trivial
    · exact htracer
  | tracerProcs content =>
    simp only [step]
    split
    · next event uid pod uids hreading =>
      split_ifs with hpid
      · cases content with
        | none => cases hpid
        | some content =>
          -- the process lives where the list of the slice was read
          have hhome := hhonest event uid pod uids hreading event.pid hpid
          rw [hreading] at htracer
          show AtSlice root (home event.pid)
          rw [hhome]
          exact htracer
      · exact trivial
    · exact htracer
  | tracerWrite =>
    simp only [step]
    split
    · exact trivial
    · exact htracer

/-- In every state of an honest run the slices alone are looked at. -/
theorem allAtSlice_after (hhonest : ∀ before action, before ++ [action] <+: actions →
      Honest home (after root before) action) :
    AllAtSlice root home (after root actions).registry :=
  (after_invariant
    (fun state => AllAtSlice root home state.registry ∧ LooksAtSlice root home state.tracer)
    (Honest home)
    ⟨allAtSlice_new, trivial⟩
    (fun _ action hstate hallowed => ⟨hstate.1.step hstate.2 action,
      looksAtSlice_step hstate.1 hstate.2 hallowed⟩)
    hhonest).1

/-- **No event of a process in a container is recorded.**  Its process lives below the slice of a
Pod that was registered at some time; `cgroup.procs` of the slice does not list it. -/
theorem never_recorded {before : List Action} {uid : Text} {pod : PodInfo} {scope : Path}
    {event : ThrottleEvent}
    (hhonest : ∀ earlier action, earlier ++ [action] <+: actions →
      Honest home (after root earlier) action)
    (hbefore : before <+: actions) (hpod : pod ∈ (after root before).registry.getPod uid)
    (hscope : scope ≠ []) (hhome : home event.pid = pod.cgroupPath ++ scope) :
    ∀ key, ∀ events ∈ (after root actions).registry.throttleEvents.lookup key, event ∉ events := by
  intro key events hevents hevent
  have hslice : AtSlice root pod.cgroupPath :=
    (allAtSlice_after fun earlier action hearlier =>
      hhonest earlier action (hearlier.trans hbefore)).pods uid pod hpod
  have hrecorded : AtSlice root (home event.pid) :=
    (allAtSlice_after hhonest).events key events hevents event hevent
  rw [hhome, AtSlice, List.length_append, hslice] at hrecorded
  exact hscope (List.eq_nil_of_length_eq_zero (by omega))

end Containers

/-! ### A lookup -/

/-- An event of a process in a container of the Pod of `onePod`. -/
def scopeEvent : ThrottleEvent := ⟨1, "worker".toList, 7, 100⟩

/-- The Pod of `onePod`. -/
def scopePod : PodInfo := podInfo [] (fun _ => .burstable) ['a']

/-- The cgroup of the process. -/
def scopeHome (_ : ℕ) : Path := scopePod.cgroupPath ++ ["cri-containerd-1.scope".toList]

/-- The Pod is discovered, and the line of the event is looked up to the end. -/
def scopeRun : List Action :=
  [.discover onePod, .readLine (eventLine scopeEvent), .tracerList [['a']], .tracerGet,
    .tracerProcs (some []), .tracerGet]

theorem readProcs_nil : readProcs [] = [] := by decide

theorem honest_scopeRun : ∀ before action, before ++ [action] <+: scopeRun →
    Honest scopeHome (after [] before) action := by
  intro before action hprefix
  have hmem : action ∈ scopeRun := hprefix.subset (List.mem_append_right _ List.mem_cons_self)
  simp only [scopeRun, List.mem_cons, List.not_mem_nil, or_false] at hmem
  rcases hmem with rfl | rfl | rfl | rfl | rfl | rfl <;>
    first
      | exact trivial
      | exact fun _ _ _ _ _ pid hpid => absurd hpid (readProcs_nil ▸ List.not_mem_nil)

/-- The process lives below the slice of the Pod, the Pod is registered, and the event is read from
its line; after an honest lookup, to its end, no event of the Pod is recorded. -/
theorem scopeEvent_lost :
    (∀ before action, before ++ [action] <+: scopeRun →
      Honest scopeHome (after [] before) action) ∧
    scopeHome scopeEvent.pid = scopePod.cgroupPath ++ ["cri-containerd-1.scope".toList] ∧
    (after [] scopeRun).registry.getPod ['a'] = some scopePod ∧
    parseThrottleEvent (eventLine scopeEvent) = some scopeEvent ∧
    (after [] scopeRun).tracer = .waiting ∧
    (after [] scopeRun).registry.throttleEvents.lookup ['a'] = some [] :=
  ⟨honest_scopeRun, rfl, by decide +kernel⟩

theorem never_recorded_scopeEvent :
    ∃ events, (after [] scopeRun).registry.throttleEvents.lookup ['a'] = some events ∧
      scopeEvent ∉ events := by
  have hpod : scopePod ∈ (after [] scopeRun).registry.getPod ['a'] := by decide +kernel
  have hscope : ["cri-containerd-1.scope".toList] ≠ [] := List.cons_ne_nil _ _
  have hevents : (after [] scopeRun).registry.throttleEvents.lookup ['a'] = some [] := by
    decide +kernel
  exact ⟨[], hevents,
    never_recorded honest_scopeRun List.prefix_rfl hpod hscope rfl ['a'] [] hevents⟩

end BpfTracer
