import K8Labs.Python.Datetime
import K8Labs.Python.Document
import Mathlib.Data.List.Sort

/-!
# One placement burst

`submit_burst.py` submits the Pods of a burst, waits until they are scheduled and prints one row a
Pod.  What the cluster answers is a `Cluster`: the reply to every `kubectl` call and every reading
of the clock.

* `main_ne_ok` : a capacity burst never returns.  The wait ends only when every Pod has a node, and
  then more Pods are scheduled than fit.
* `main_intended` : when the excess Pods stay Pending, the burst ends at the deadline with an
  error that names unscheduled Pods.
-/

namespace KubeSched

open Py

/-- `POD_CPU_MILLIS`. -/
def podCpuMillis : ℤ := 500

/-- `POD_MEMORY_KI`. -/
def podMemoryKi : ℤ := 256 * 1024

/-- `CAPACITY_MATRICES`. -/
inductive CapacityMatrix where
  | leastAllocated
  | mostAllocated
  deriving DecidableEq

/-- The name of a matrix. -/
def CapacityMatrix.name : CapacityMatrix → String
  | leastAllocated => "least-allocated"
  | mostAllocated => "most-allocated"

/-- `args.matrix in CAPACITY_MATRICES`. -/
def isCapacity (matrix : String) : Bool :=
  matrix = CapacityMatrix.leastAllocated.name || matrix = CapacityMatrix.mostAllocated.name

theorem isCapacity_name (matrix : CapacityMatrix) : isCapacity matrix.name = true := by
  cases matrix <;> decide

/-- `EXCESS`. -/
def excess : ℕ := 3

/-- `raise SystemExit(message)`. -/
def systemExit {α : Type*} (message : String) : Except Exc α := .error ⟨.systemExit, message⟩

/-! ### Capacity -/

/-- The string a string method is called on. -/
def string : Value → Except Exc String
  | .scalar (.str s) => .ok s
  | _ => .error ⟨.attributeError, "object has no attribute 'strip'"⟩

/-- `value[:-n]`. -/
def dropEnd (n : ℕ) (s : String) : String := String.ofList (s.toList.take (s.toList.length - n))

/-- `value.endswith(suffix)`. -/
def endsWith (suffix s : String) : Bool := suffix.toList.isSuffixOf s.toList

/-- `parse_cpu_millis`. -/
def parseCpuMillis (value : Value) : Except Exc ℤ :=
  (string value).bind fun s =>
    let value := strip s
    if endsWith "m" value then parseInt (dropEnd 1 value) else (parseInt value).map (· * 1000)

/-- `parse_memory_ki`. -/
def parseMemoryKi (value : Value) : Except Exc ℤ :=
  (string value).bind fun s =>
    let value := strip s
    match [("Ki", 1), ("Mi", 1024), ("Gi", 1024 * 1024)].find? fun p => endsWith p.1 value with
    | some (_, factor) => (parseInt (dropEnd 2 value)).map (· * factor)
    | none => (parseInt value).map (· / 1024)

/-- `worker_nodes`: the nodes without the label of the control plane. -/
def workerNodes (data : Value) : Except Exc (List Value) :=
  (data.index "items").bind fun items =>
  items.iterate.bind fun nodes =>
    gather (fun node =>
      (node.index "metadata").bind fun metadata =>
      (metadata.index "labels").bind fun labels =>
      (labels.contains "node-role.kubernetes.io/control-plane").map fun found =>
        if found then [] else [node]) nodes

/-- A quantity of a request, zero when it is not given. -/
def quantityOr (parse : Value → Except Exc ℤ) (value : Value) : Except Exc ℤ :=
  if value.truthy then parse value else .ok 0

/-- What one container requests on a node. -/
def containerUsage (node : Scalar) (container : Value) : Except Exc (Scalar × ℤ × ℤ) :=
  container.items.bind fun container =>
  (container.getOr "resources" (.dict [])).items.bind fun resources =>
  ((resources.getOr "requests" (.dict [])).orElse (.dict [])).items.bind fun requests =>
  (quantityOr parseCpuMillis (requests.get "cpu")).bind fun cpu =>
  (quantityOr parseMemoryKi (requests.get "memory")).map fun memory => (node, cpu, memory)

/-- What a Pod requests on its node. -/
def podUsage (pod : Value) : Except Exc (List (Scalar × ℤ × ℤ)) :=
  pod.items.bind fun pod =>
  (pod.getOr "spec" (.dict [])).items.bind fun spec =>
    if (spec.get "nodeName").truthy then
      (spec.get "nodeName").hashed.bind fun node =>
      (spec.getOr "containers" (.list [])).iterate.bind fun containers =>
        Py.traverse (containerUsage node) containers
    else .ok []

/-- `existing_usage_by_node`, request by request. -/
def existingUsage (data : Value) : Except Exc (List (Scalar × ℤ × ℤ)) :=
  (data.index "items").bind fun items => items.iterate.bind fun pods => gather podUsage pods

/-- The slots that fit on one node. -/
def nodeFit (usage : List (Scalar × ℤ × ℤ)) (node : Value) : Except Exc ℕ :=
  (node.index "metadata").bind fun metadata =>
  (metadata.index "name").bind fun name =>
  (node.index "status").bind fun status =>
  (status.index "allocatable").bind fun alloc =>
  name.hashed.bind fun name =>
  (alloc.index "cpu").bind fun cpu =>
  (parseCpuMillis cpu).bind fun cpu =>
  (alloc.index "memory").bind fun memory =>
  (parseMemoryKi memory).map fun memory =>
    let used := (usage.filter fun u => u.1.eq name).map Prod.snd
    let freeCpu := cpu - (used.map Prod.fst).sum
    let freeMem := memory - (used.map Prod.snd).sum
    (min (freeCpu / podCpuMillis) (freeMem / podMemoryKi)).toNat

/-- `capacity_fit`. -/
def capacityFit (nodes : List Value) (usage : List (Scalar × ℤ × ℤ)) : Except Exc ℕ :=
  (Py.traverse (nodeFit usage) nodes).map List.sum

/-! ### Submitting -/

/-- The replies of the cluster and the readings of the clock. -/
structure Cluster where
  /-- `kubectl get nodes`. -/
  nodes : Except Exc Value
  /-- `kubectl get pods -A`. -/
  pods : Except Exc Value
  /-- `kubectl label node NAME KEY=ZONE`. -/
  label : String → String → String → Except Exc Unit
  /-- `kubectl apply` of the Pod with an index. -/
  apply : ℕ → Except Exc Unit
  /-- The clock before each Pod is applied. -/
  createdAt : ℕ → ℚ
  /-- The clock when the wait begins. -/
  waitFrom : ℚ
  /-- `kubectl get pods -l app=kube-sched-probe`, call by call. -/
  listing : ℕ → Except Exc Value
  /-- The clock behind each of these calls. -/
  polledAt : ℕ → ℚ

/-- The arguments of the program. -/
structure Args where
  matrix : String
  block : ℤ
  burst : ℤ
  timeout : ℤ
  topologyKey : String

/-- The name of the Pod with an index, as `pod_manifest` gives it. -/
def podName (block : ℤ) (index : ℕ) : String :=
  "sched-probe-b" ++ toString block ++ "-" ++ toString index

/-- `ensure_zone_labels`: every worker, by name, is given one of three zones. -/
def ensureZoneLabels (cluster : Cluster) (nodes : List Value) (topologyKey : String) :
    Except Exc Unit :=
  (Py.traverse (fun node => (node.index "metadata").bind fun metadata =>
      (metadata.index "name").bind string) nodes).bind fun names =>
  (Py.traverse (fun p : String × ℕ =>
      cluster.label p.1 topologyKey (["zone-a", "zone-b", "zone-c"].getD (p.2 % 3) ""))
    (names.insertionSort (· ≤ ·)).zipIdx).map fun _ => ()

/-- How many Pods fit, for the capacity matrices, and how many are submitted. -/
def plan (cluster : Cluster) (args : Args) (nodes : List Value) : Except Exc (Option ℕ × ℕ) :=
  if isCapacity args.matrix then
    cluster.pods.bind fun pods =>
    (existingUsage pods).bind fun usage =>
    (capacityFit nodes usage).map fun fit => (some fit, fit + excess)
  else (ensureZoneLabels cluster nodes args.topologyKey).map fun _ => (none, args.burst.toNat)

/-- The Pods are applied one after the other. -/
def submit (cluster : Cluster) (total : ℕ) : Except Exc Unit :=
  (Py.traverse cluster.apply (List.range total)).map fun _ => ()

/-! ### Waiting -/

/-- The Pods of a listing by name; of one name the last counts. -/
abbrev Observed := List (Scalar × Value)

/-- `{p["metadata"]["name"]: p for p in data["items"]}`. -/
def observe (data : Value) : Except Exc Observed :=
  (data.index "items").bind fun items =>
  items.iterate.bind fun pods =>
    Py.traverse (fun pod => (pod.index "metadata").bind fun metadata =>
      (metadata.index "name").bind fun name => name.hashed.map fun name => (name, pod)) pods

/-- `observed.get(name)`. -/
def Observed.find (observed : Observed) (name : String) : Option Value :=
  (observed.reverse.find? fun p => p.1.eq (.str name)).map Prod.snd

/-- `pod.get("spec", {}).get("nodeName")`. -/
def nodeOf (pod : Value) : Except Exc Value :=
  pod.items.bind fun pod => (pod.getOr "spec" (.dict [])).items.map fun spec => spec.get "nodeName"

/-- A Pod is unresolved: it is not listed, or it has no node. -/
def unresolvedPod (observed : Observed) (name : String) : Except Exc (List String) :=
  match observed.find name with
  | none => .ok [name]
  | some pod => (nodeOf pod).map fun node => if node.truthy then [] else [name]

/-- `wait_scheduled`, from one call on; `none` when the fuel does not suffice. -/
def waitScheduled (cluster : Cluster) (names : List String) (deadline : ℚ) :
    ℕ → ℕ → Option (Except Exc (Observed × List String))
  | 0, _ => none
  | fuel + 1, call =>
    match (cluster.listing call).bind fun data =>
      (observe data).bind fun observed =>
      (gather (unresolvedPod observed) names).map fun unresolved => (observed, unresolved) with
    | .error e => some (.error e)
    | .ok (observed, unresolved) =>
      if unresolved = [] then some (.ok (observed, []))
      else if deadline ≤ cluster.polledAt call then some (.ok (observed, unresolved))
      else waitScheduled cluster names deadline fuel (call + 1)

/-! ### Rows -/

/-- A row of the table. -/
structure PodRow where
  pod : String
  latency : ℚ
  unschedulable : Bool
  correct : Bool
  deriving DecidableEq

/-- The latency of a Pod that is bound, from its condition; a Pod bound in the second it was created
counts as a millisecond. -/
def boundLatency (created : ℚ) (condition : Items) : Except Exc ℚ :=
  (Value.index "lastTransitionTime" (.dict condition)).bind fun time =>
    match time with
    | .scalar (.str text) => (Datetime.timestamp text).map fun scheduled =>
      if max (scheduled - created) 0 = 0 then 1 / 1000 else max (scheduled - created) 0
    | _ => typeError "strptime() argument 1 must be str"

/-- The loop over the conditions; the last one that matters counts. -/
def latencyOf (created : ℚ) (bound : Bool) (conditions : List Value) : Except Exc ℚ :=
  fold (fun latency condition => condition.items.bind fun condition =>
    if (condition.get "type").eq (.str "PodScheduled") && bound then boundLatency created condition
    else .ok latency) 0 conditions

/-- The row of a Pod. -/
def podRow (fit : Option ℕ) (created : ℚ) (observed : Observed) (index : ℕ) (name : String) :
    Except Exc PodRow :=
  match observed.find name with
  | none => .error ⟨.keyError, name⟩
  | some pod =>
    (nodeOf pod).bind fun node =>
    pod.items.bind fun pod =>
    (pod.getOr "status" (.dict [])).items.bind fun status =>
    (status.getOr "conditions" (.list [])).iterate.bind fun conditions =>
    (latencyOf created node.truthy conditions).map fun latency =>
      { pod := name
        latency := latency
        unschedulable := !node.truthy
        correct := match fit with
          | some fit => decide (index < fit) && node.truthy || !decide (index < fit) && !node.truthy
          | none => node.truthy }

/-- The rows of the burst. -/
def rows (cluster : Cluster) (fit : Option ℕ) (observed : Observed) (names : List String) :
    Except Exc (List PodRow) :=
  Py.traverse (fun p : String × ℕ => podRow fit (cluster.createdAt p.2) observed p.2 p.1) names.zipIdx

/-- As many Pods are scheduled as fit. -/
def checkFit (fit : Option ℕ) (rows : List PodRow) : Except Exc (List PodRow) :=
  match fit with
  | none => .ok rows
  | some fit =>
    let scheduled := (rows.filter fun r => !r.unschedulable).length
    if scheduled ≠ fit then
      systemExit ("capacity mismatch: expected " ++ toString fit ++
        " scheduled Pods, observed " ++ toString scheduled ++
        "; the capacity model is wrong for this cluster state")
    else .ok rows

/-- `repr` of a list of strings. -/
def listText (names : List String) : String := "[" ++ ", ".intercalate (names.map quoted) ++ "]"

/-- The error of a burst that is not scheduled in time. -/
def unresolvedError (timeout : ℤ) (unresolved : List String) : Exc :=
  ⟨.systemExit, "placement burst unresolved; Pods not scheduled within " ++ toString timeout ++
    "s: " ++ listText (unresolved.insertionSort (· ≤ ·))⟩

/-- What follows the wait. -/
def report (cluster : Cluster) (args : Args) (fit : Option ℕ) (names : List String)
    (waited : Observed × List String) : Except Exc (List PodRow) :=
  if waited.2 ≠ [] then .error (unresolvedError args.timeout waited.2)
  else (rows cluster fit waited.1 names).bind (checkFit fit)

/-- What comes before the wait: how many Pods fit, and the names of the submitted ones. -/
def submitBurst (cluster : Cluster) (args : Args) : Except Exc (Option ℕ × List String) :=
  cluster.nodes.bind fun data =>
  (workerNodes data).bind fun nodes =>
    if nodes = [] then systemExit "no worker nodes found"
    else
      (plan cluster args nodes).bind fun (fit, total) =>
      (submit cluster total).map fun _ => (fit, (List.range total).map (podName args.block))

/-- `main`: the rows that are printed before it returns 0; `none` when the fuel does not suffice for
the wait. -/
def main (cluster : Cluster) (args : Args) (fuel : ℕ) : Option (Except Exc (List PodRow)) :=
  match submitBurst cluster args with
  | .error e => some (.error e)
  | .ok (fit, names) =>
    (waitScheduled cluster names (cluster.waitFrom + args.timeout) fuel 0).map fun waited =>
      waited.bind (report cluster args fit names)

/-! ### A capacity burst -/

section Burst

variable {cluster : Cluster} {args : Args} {observed : Observed} {names : List String}

theorem plan_capacity {nodes : List Value} {fit : Option ℕ} {total : ℕ}
    (hmatrix : isCapacity args.matrix = true) (h : plan cluster args nodes = .ok (fit, total)) :
    ∃ n, fit = some n ∧ total = n + excess := by
  rw [plan, if_pos hmatrix] at h
  obtain ⟨pods, -, hrest⟩ := bind_eq_ok.1 h
  obtain ⟨usage, -, hrest⟩ := bind_eq_ok.1 hrest
  obtain ⟨n, -, heq⟩ := map_eq_ok.1 hrest
  obtain ⟨rfl, rfl⟩ := Prod.mk.inj heq
  exact ⟨n, rfl, rfl⟩

/-- A capacity burst has three Pods more than fit. -/
theorem length_submitBurst {fit : Option ℕ} (hmatrix : isCapacity args.matrix = true)
    (h : submitBurst cluster args = .ok (fit, names)) :
    ∃ n, fit = some n ∧ names.length = n + excess := by
  obtain ⟨data, -, hrest⟩ := bind_eq_ok.1 h
  obtain ⟨nodes, -, hrest₁⟩ := bind_eq_ok.1 hrest
  split_ifs at hrest₁
  · cases hrest₁
  · obtain ⟨⟨fit', total⟩, hplan, hrest₂⟩ := bind_eq_ok.1 hrest₁
    obtain ⟨⟨⟩, -, heq⟩ := map_eq_ok.1 hrest₂
    obtain ⟨rfl, rfl⟩ := Prod.mk.inj heq
    obtain ⟨n, hfit, htotal⟩ := plan_capacity hmatrix hplan
    exact ⟨n, hfit, by simp [htotal]⟩

/-- The wait ends with Pods that are unresolved, or with Pods that all have nodes. -/
theorem waitScheduled_eq_ok {deadline : ℚ} {fuel call : ℕ} {unresolved : List String}
    (h : waitScheduled cluster names deadline fuel call = some (.ok (observed, unresolved))) :
    gather (unresolvedPod observed) names = .ok unresolved := by
  induction fuel generalizing call with
  | zero => cases h
  | succ fuel ih =>
    rw [waitScheduled] at h
    split at h
    · cases h
    · rename_i hcall
      obtain ⟨data, -, hrest⟩ := bind_eq_ok.1 hcall
      obtain ⟨seen, -, hrest₁⟩ := bind_eq_ok.1 hrest
      obtain ⟨left, hleft, heq⟩ := map_eq_ok.1 hrest₁
      obtain ⟨rfl, rfl⟩ := Prod.mk.inj heq
      split_ifs at h with hnil
      · cases h
        rw [hleft, hnil]
      · cases h
        exact hleft
      · exact ih h

/-- A Pod with a node makes a row that is scheduled. -/
theorem podRow_scheduled {fit : Option ℕ} {created : ℚ} {index : ℕ} {name : String} {row : PodRow}
    (hresolved : unresolvedPod observed name = .ok [])
    (h : podRow fit created observed index name = .ok row) : row.unschedulable = false := by
  rw [unresolvedPod] at hresolved
  rw [podRow] at h
  cases hfind : observed.find name with
  | none =>
    rw [hfind] at h
    cases h
  | some pod =>
    simp only [hfind] at hresolved h
    obtain ⟨node, hnode, hrest⟩ := bind_eq_ok.1 h
    obtain ⟨pod', -, hrest₁⟩ := bind_eq_ok.1 hrest
    obtain ⟨status, -, hrest₂⟩ := bind_eq_ok.1 hrest₁
    obtain ⟨conditions, -, hrest₃⟩ := bind_eq_ok.1 hrest₂
    obtain ⟨latency, -, rfl⟩ := map_eq_ok.1 hrest₃
    rw [hnode] at hresolved
    simpa [Except.map] using hresolved

/-- **A capacity burst never returns.**  The wait ends without an error only when every Pod has a
node, the three excess ones too; and then the count of the scheduled Pods is three too high. -/
theorem main_ne_ok (cluster : Cluster) (args : Args) (matrix : CapacityMatrix) :
    ¬ ∃ fuel rows, main cluster { args with matrix := matrix.name } fuel = some (.ok rows) := by
  rintro ⟨fuel, printed, h⟩
  rw [main] at h
  split at h
  · cases h
  rename_i fit names hsubmit
  obtain ⟨n, rfl, hlength⟩ := length_submitBurst (isCapacity_name matrix) hsubmit
  obtain ⟨waited, hwait, hreport⟩ := Option.map_eq_some_iff.1 h
  obtain ⟨⟨observed, unresolved⟩, rfl, hrows⟩ := bind_eq_ok.1 hreport
  rw [report] at hrows
  split_ifs at hrows with hnil
  rw [ne_eq, not_not] at hnil
  obtain ⟨found, hfound, hcheck⟩ := bind_eq_ok.1 hrows
  have hresolved := waitScheduled_eq_ok hwait
  rw [show unresolved = [] from hnil, gather_eq_nil] at hresolved
  -- every row is scheduled, so the count is the number of all Pods
  have hall : ∀ row ∈ found, row.unschedulable = false := by
    intro row hrow
    obtain ⟨⟨name, index⟩, hmem, hpod⟩ := (mem_traverse hfound).1 hrow
    exact podRow_scheduled (hresolved name (List.fst_mem_of_mem_zipIdx hmem)) hpod
  have hcount : (found.filter fun r => !r.unschedulable) = found :=
    List.filter_eq_self.2 fun row hrow => by simp [hall row hrow]
  have hlen : found.length = n + excess := by
    rw [← (traverse_eq_ok.1 hfound).length_eq, List.length_zipIdx, hlength]
  rw [checkFit] at hcheck
  rw [hcount, hlen, if_pos (by simp [excess])] at hcheck
  cases hcheck

/-! ### A burst that is placed as meant -/

/-- A Pod is listed, and has a node or not. -/
def Listed (observed : Observed) (bound : Bool) (name : String) : Prop :=
  ∃ pod node, observed.find name = some pod ∧ nodeOf pod = .ok node ∧ node.truthy = bound

/-- A capacity burst as it is meant to go: the excess Pods never get a node, and at the first call
behind the deadline all Pods are listed and those that fit have nodes. -/
structure Intended (cluster : Cluster) (args : Args) (fit : ℕ) (names : List String) (last : ℕ) :
    Prop where
  submitted : submitBurst cluster args = .ok (some fit, names)
  capacity : isCapacity args.matrix = true
  waiting : ∀ call < last, cluster.polledAt call < cluster.waitFrom + args.timeout ∧
    ∃ observed, (cluster.listing call).bind observe = .ok observed ∧
      (∀ name ∈ names, observed.find name = none ∨ ∃ bound, Listed observed bound name) ∧
      ∀ name ∈ names.drop fit, observed.find name = none ∨ Listed observed false name
  deadline : cluster.waitFrom + args.timeout ≤ cluster.polledAt last
  placed : ∃ observed, (cluster.listing last).bind observe = .ok observed ∧
    (∀ name ∈ names.take fit, Listed observed true name) ∧
      ∀ name ∈ names.drop fit, Listed observed false name

/-- There are excess Pods. -/
theorem Intended.drop_ne_nil {fit last : ℕ} (h : Intended cluster args fit names last) :
    names.drop fit ≠ [] := by
  obtain ⟨n, hn, hlength⟩ := length_submitBurst h.capacity h.submitted
  obtain rfl := Option.some.inj hn
  intro hnil
  rw [List.drop_eq_nil_iff, hlength] at hnil
  exact absurd hnil (by simp [excess])

theorem unresolvedPod_of_none {name : String} (h : observed.find name = none) :
    unresolvedPod observed name = .ok [name] := by
  simp [unresolvedPod, h]

theorem unresolvedPod_of_listed {bound : Bool} {name : String} (h : Listed observed bound name) :
    unresolvedPod observed name = .ok (if bound then [] else [name]) := by
  obtain ⟨pod, node, hfind, hnode, rfl⟩ := h
  simp [unresolvedPod, hfind, hnode, Except.map]

/-- Before the deadline the wait goes on. -/
theorem waitScheduled_succ {deadline : ℚ} {call : ℕ} {pending : List String}
    (hobserved : (cluster.listing call).bind observe = .ok observed)
    (hpending : gather (unresolvedPod observed) names = .ok pending) (hne : pending ≠ [])
    (fuel : ℕ) : waitScheduled cluster names deadline (fuel + 1) call =
      if deadline ≤ cluster.polledAt call then some (.ok (observed, pending))
      else waitScheduled cluster names deadline fuel (call + 1) := by
  obtain ⟨data, hdata, hobserve⟩ := bind_eq_ok.1 hobserved
  rw [waitScheduled, hdata]
  simp only [Except.bind, hobserve, hpending, Except.map, if_neg hne]

theorem waitScheduled_intended {fit last : ℕ} (h : Intended cluster args fit names last) :
    ∃ observed, waitScheduled cluster names (cluster.waitFrom + args.timeout) (last + 1) 0 =
      some (.ok (observed, names.drop fit)) := by
  have hdrop := h.drop_ne_nil
  obtain ⟨observed, hobserved, hbound, hpending⟩ := h.placed
  refine ⟨observed, ?_⟩
  have key : ∀ fuel call, call + fuel = last →
      waitScheduled cluster names (cluster.waitFrom + args.timeout) (fuel + 1) call =
        some (.ok (observed, names.drop fit)) := by
    intro fuel
    induction fuel with
    | zero =>
      intro call hcall
      obtain rfl : call = last := hcall
      have hgather : gather (unresolvedPod observed) names = .ok (names.drop fit) := by
        have htake : gather (unresolvedPod observed) (names.take fit) = .ok [] :=
          gather_eq_nil.2 fun name hname => unresolvedPod_of_listed (hbound name hname)
        have hrest : gather (unresolvedPod observed) (names.drop fit) = .ok (names.drop fit) :=
          gather_eq_self fun name hname => unresolvedPod_of_listed (hpending name hname)
        rw [← List.take_append_drop fit names, gather_append, htake]
        simp [Except.bind, Except.map, hrest]
      rw [waitScheduled_succ hobserved hgather hdrop, if_pos h.deadline]
    | succ fuel ih =>
      intro call hcall
      obtain ⟨hearly, seen, hseen, hlisted, hstay⟩ := h.waiting call (by omega)
      -- the excess Pods keep the wait going
      obtain ⟨pending, hgather⟩ : ∃ pending, gather (unresolvedPod seen) names = .ok pending := by
        obtain ⟨lists, hlists⟩ := traverse_isOk.2 fun name hname => by
          rcases hlisted name hname with hnone | ⟨bound, hsome⟩
          · exact ⟨[name], unresolvedPod_of_none hnone⟩
          · exact ⟨_, unresolvedPod_of_listed hsome⟩
        exact ⟨lists.flatten, by rw [gather, hlists]; rfl⟩
      have hne : pending ≠ [] := by
        rintro rfl
        obtain ⟨name, hname⟩ := List.exists_mem_of_ne_nil _ hdrop
        have hnil := gather_eq_nil.1 hgather name (List.mem_of_mem_drop hname)
        rcases hstay name hname with hnone | hfalse
        · rw [unresolvedPod_of_none hnone] at hnil
          cases hnil
        · rw [unresolvedPod_of_listed hfalse] at hnil
          cases hnil
      rw [waitScheduled_succ hseen hgather hne, if_neg (not_le.2 hearly)]
      exact ih (call + 1) (by omega)
  exact key last 0 (by omega)

/-- A burst that goes as it is meant to ends with an error that names the excess Pods. -/
theorem main_intended {fit last : ℕ} (h : Intended cluster args fit names last) :
    main cluster args (last + 1) = some (.error (unresolvedError args.timeout (names.drop fit))) := by
  have hdrop := h.drop_ne_nil
  obtain ⟨observed, hwait⟩ := waitScheduled_intended h
  rw [main, h.submitted]
  simp only [hwait, Option.map_some, Except.bind, report, if_pos hdrop]

end Burst

/-! ### A cluster with room for one Pod -/

/-- A Pod of a listing. -/
def listedPod (name : String) (spec : Items) : Value :=
  .dict [(.str "metadata", .dict [(.str "name", .str name)]), (.str "spec", .dict spec)]

/-- The names of the Pods, and what each Pod is given. -/
def smallPods : List (String × Items) :=
  [("sched-probe-b1-0", [(.str "nodeName", .str "w")]), ("sched-probe-b1-1", []),
    ("sched-probe-b1-2", []), ("sched-probe-b1-3", [])]

/-- The first Pod is bound, the other three stay Pending. -/
def smallCluster : Cluster where
  nodes := .ok (.dict [(.str "items", .list [.dict
    [(.str "metadata", .dict [(.str "name", .str "w"), (.str "labels", .dict [])]),
      (.str "status", .dict [(.str "allocatable",
        .dict [(.str "cpu", .str "500m"), (.str "memory", .str "256Mi")])])]])])
  pods := .ok (.dict [(.str "items", .list [])])
  label _ _ _ := .ok ()
  apply _ := .ok ()
  createdAt _ := 0
  waitFrom := 0
  listing _ := .ok (.dict [(.str "items", .list (smallPods.map fun p => listedPod p.1 p.2))])
  polledAt _ := 120

/-- The arguments of the first block. -/
def smallArgs : Args := ⟨"least-allocated", 1, 12, 120, "topology.kubernetes.io/zone"⟩

/-- The burst on the small cluster is as it is meant to be, and does not return its rows. -/
theorem not_returns_smallCluster :
    ¬ ∀ cluster args fit names last, Intended cluster args fit names last →
      ∃ fuel rows, main cluster args fuel = some (.ok rows) ∧ rows.length = fit + excess ∧
        (∀ row ∈ rows, row.correct = true) ∧
          rows.map PodRow.unschedulable = List.replicate fit false ++ List.replicate excess true := by
  intro h
  have hobserved : (smallCluster.listing 0).bind observe =
      .ok (smallPods.map fun p => (.str p.1, listedPod p.1 p.2)) := rfl
  have hbound : ∀ name ∈ (smallPods.map Prod.fst).take 1,
      Listed (smallPods.map fun p => (.str p.1, listedPod p.1 p.2)) true name := by
    intro name hname
    obtain rfl := List.mem_singleton.1 hname
    exact ⟨_, _, rfl, rfl, rfl⟩
  have hpending : ∀ name ∈ (smallPods.map Prod.fst).drop 1,
      Listed (smallPods.map fun p => (.str p.1, listedPod p.1 p.2)) false name := by
    intro name hname
    simp only [smallPods, List.map_cons, List.map_nil, List.drop_succ_cons, List.drop_zero,
      List.mem_cons, List.not_mem_nil, or_false] at hname
    obtain rfl | rfl | rfl := hname <;> exact ⟨_, _, rfl, rfl, rfl⟩
  have hintended : Intended smallCluster smallArgs 1 (smallPods.map Prod.fst) 0 :=
    { submitted := by decide +kernel
      capacity := by decide
      waiting := fun call hcall => absurd hcall (Nat.not_lt_zero call)
      deadline := by norm_num [smallCluster, smallArgs]
      placed := ⟨_, hobserved, hbound, hpending⟩ }
  obtain ⟨fuel, rows, hmain, -⟩ := h _ _ _ _ _ hintended
  exact main_ne_ok smallCluster smallArgs .leastAllocated ⟨fuel, rows, hmain⟩

end KubeSched
