import K8Labs.KubeSched.SubmitBurst
import K8Labs.Python.Comprehension
import K8Labs.Python.General
import Mathlib.Order.Bounds.Basic

/-!
# The room for probe Pods

The nodes and Pods of a cluster with the quantities that they stand for.  `existing_usage_by_node`
and `capacity_fit` read the quantities in millicores and in whole Ki, and know some of the suffixes
only.

* `fit_correct_iff` : **when the fit is the largest number of probe Pods that the exact sums leave room
  for.**
-/

namespace KubeSched

namespace Capacity

open Py

/-! ### Quantities -/

/-- The suffix of a quantity. -/
inductive Suffix where
  | plain
  | m
  | k
  | M
  | G
  | T
  | Ki
  | Mi
  | Gi
  | Ti
  deriving DecidableEq

/-- The characters of a suffix. -/
def Suffix.chars : Suffix → List Char
  | plain => []
  | m => ['m']
  | k => ['k']
  | M => ['M']
  | G => ['G']
  | T => ['T']
  | Ki => ['K', 'i']
  | Mi => ['M', 'i']
  | Gi => ['G', 'i']
  | Ti => ['T', 'i']

/-- What a suffix stands for. -/
def Suffix.factor : Suffix → ℚ
  | plain => 1
  | m => 1 / 1000
  | k => 1000
  | M => 1000 ^ 2
  | G => 1000 ^ 3
  | T => 1000 ^ 4
  | Ki => 1024
  | Mi => 1024 ^ 2
  | Gi => 1024 ^ 3
  | Ti => 1024 ^ 4

/-- A quantity as the API server writes it. -/
structure Quantity where
  number : ℕ
  suffix : Suffix
  number_lt : number < 2 ^ 63
  deriving DecidableEq

namespace Quantity

/-- The text of a quantity. -/
def text (q : Quantity) : String := String.ofList (natDigits q.number ++ q.suffix.chars)

/-- The value of a quantity, in cores or in bytes. -/
def value (q : Quantity) : ℚ := q.number * q.suffix.factor

/-- A suffix that `parse_cpu_millis` knows. -/
def IsCpu (q : Quantity) : Prop := q.suffix = .plain ∨ q.suffix = .m

/-- A suffix that `parse_memory_ki` knows. -/
def IsMemory (q : Quantity) : Prop :=
  q.suffix = .plain ∨ q.suffix = .Ki ∨ q.suffix = .Mi ∨ q.suffix = .Gi

/-- The bytes that are left of whole Ki. -/
def oddBytes (q : Quantity) : ℕ := if q.suffix = .plain then q.number % 1024 else 0

/-- The millicores that are read. -/
def millis (q : Quantity) : ℤ := if q.suffix = .plain then q.number * 1000 else q.number

/-- The Ki that are read. -/
def ki (q : Quantity) : ℤ :=
  match q.suffix with
  | .Ki => q.number
  | .Mi => q.number * 1024
  | .Gi => q.number * (1024 * 1024)
  | _ => q.number / 1024

section Parse

variable {q : Quantity} {n : ℤ}

/-- What is read as a number are digits, with underscores between them. -/
theorem groupedDigits_eq_some {cs ds : List Char} (h : groupedDigits cs = some ds) :
    ∀ c ∈ cs, isDigit c = true ∨ c = '_' := by
  induction cs using groupedDigits.induct generalizing ds with
  | case1 => cases h
  | case2 c hc => exact fun d hd => .inl (List.mem_singleton.1 hd ▸ hc)
  | case4 c cs hc ih =>
    rw [groupedDigits, if_pos hc] at h
    obtain ⟨ds', hds, -⟩ := Option.map_eq_some_iff.1 h
    exact List.forall_mem_cons.2 ⟨.inl hc, List.forall_mem_cons.2 ⟨.inr rfl, ih hds⟩⟩
  | case6 c cs hne hgroup hc ih =>
    rw [groupedDigits.eq_4 c cs hne hgroup, if_pos hc] at h
    obtain ⟨ds', hds, -⟩ := Option.map_eq_some_iff.1 h
    exact List.forall_mem_cons.2 ⟨.inl hc, ih hds⟩
  | case3 c hc => simp [groupedDigits, hc] at h
  | case5 c cs hc => simp [groupedDigits, hc] at h
  | case7 c cs hne hgroup hc =>
    rw [groupedDigits.eq_4 c cs hne hgroup, if_neg hc] at h
    cases h

theorem isSpace_chars (suffix : Suffix) : ∀ c ∈ suffix.chars, isSpace c = false := by
  have hall : (suffix.chars.all fun c => !isSpace c) = true := by cases suffix <;> rfl
  intro c hc
  simpa using List.all_eq_true.1 hall c hc

theorem strip_text (q : Quantity) : strip q.text = q.text :=
  strip_eq_self fun c hc => (List.mem_append.1 hc).elim
    (fun hc => isSpace_of_isDigit (isDigit_of_mem_natDigits hc)) (isSpace_chars q.suffix c)

/-- `int` of the digits of a number. -/
theorem parseInt_natDigits {k : ℕ} (hk : k < 2 ^ 63) :
    parseInt (String.ofList (natDigits k)) = .ok (k : ℤ) := by
  have hdigits : ∀ c ∈ natDigits k, c.isDigit = true := fun c => isDigit_of_mem_natDigits
  have hsign : splitSign (natDigits k) = (false, natDigits k) := by
    cases hcs : natDigits k with
    | nil => rfl
    | cons c cs =>
      have hc : c.isDigit = true := hdigits c (hcs ▸ List.mem_cons_self)
      have hminus : c ≠ '-' := (ne_of_isDigit hc (by decide)).symm
      have hplus : c ≠ '+' := (ne_of_isDigit hc (by decide)).symm
      rw [splitSign.eq_def]
      simp [hminus, hplus]
  rw [parseInt, strip_eq_self fun c hc => isSpace_of_isDigit (hdigits c hc),
    String.toList_ofList, hsign]
  dsimp only
  rw [groupedDigits_eq hdigits (natDigits_ne_nil k)]
  dsimp only
  rw [intOfDigits_natDigits (hk.trans (by norm_num))]
  rfl

/-- `int` of digits before something else. -/
theorem parseInt_ne_ok {k : ℕ} {c : Char} {cs : List Char} (hspace : ∀ d ∈ c :: cs, isSpace d = false)
    (hc : isDigit c = false) (hunderscore : c ≠ '_') :
    parseInt (String.ofList (natDigits k ++ c :: cs)) ≠ .ok n := by
  intro h
  have hblank : ∀ d ∈ natDigits k ++ c :: cs, isSpace d = false := by
    intro d hd
    rcases List.mem_append.1 hd with hd | hd
    · exact isSpace_of_isDigit (isDigit_of_mem_natDigits hd)
    · exact hspace d hd
  rw [parseInt, strip_eq_self hblank, String.toList_ofList] at h
  obtain ⟨d, ds, hds⟩ := List.exists_cons_of_ne_nil (natDigits_ne_nil k)
  have hd : d.isDigit = true := isDigit_of_mem_natDigits (hds ▸ List.mem_cons_self)
  have hminus : d ≠ '-' := (ne_of_isDigit hd (by decide)).symm
  have hplus : d ≠ '+' := (ne_of_isDigit hd (by decide)).symm
  have hsign : splitSign (natDigits k ++ c :: cs) = (false, natDigits k ++ c :: cs) := by
    rw [hds, List.cons_append, splitSign.eq_def]
    simp [hminus, hplus]
  rw [hsign] at h
  dsimp only at h
  cases hgroup : groupedDigits (natDigits k ++ c :: cs) with
  | none =>
    rw [hgroup] at h
    cases h
  | some ds =>
    -- all that is grouped are digits and underscores
    rcases groupedDigits_eq_some hgroup c (by simp) with hdigit | heq
    · rw [hc] at hdigit
      cases hdigit
    · exact hunderscore heq

/-- The characters of a quantity from the end. -/
theorem exists_reverse (k : ℕ) : ∃ d ds, (natDigits k).reverse = d :: ds ∧ d.isDigit = true := by
  obtain ⟨d, ds, hds⟩ :=
    List.exists_cons_of_ne_nil (List.reverse_ne_nil_iff.2 (natDigits_ne_nil k))
  have hmem : d ∈ (natDigits k).reverse := hds ▸ List.mem_cons_self
  exact ⟨d, ds, hds, isDigit_of_mem_natDigits (List.mem_reverse.1 hmem)⟩

theorem endsWith_m (q : Quantity) : endsWith "m" q.text = decide (q.suffix = .m) := by
  obtain ⟨d, ds, hds, hd⟩ := exists_reverse q.number
  have hm : d ≠ 'm' := (ne_of_isDigit hd (by decide)).symm
  simp only [endsWith, text, String.toList_ofList, List.isSuffixOf, List.reverse_append, hds]
  cases q.suffix <;> simp [Suffix.chars, List.isPrefixOf, hm.symm]

theorem endsWith_binary (q : Quantity) :
    endsWith "Ki" q.text = decide (q.suffix = .Ki) ∧
      endsWith "Mi" q.text = decide (q.suffix = .Mi) ∧
        endsWith "Gi" q.text = decide (q.suffix = .Gi) := by
  obtain ⟨d, ds, hds, hd⟩ := exists_reverse q.number
  have hi : d ≠ 'i' := (ne_of_isDigit hd (by decide)).symm
  simp only [endsWith, text, String.toList_ofList, List.isSuffixOf, List.reverse_append, hds]
  cases q.suffix <;> simp [Suffix.chars, List.isPrefixOf, hi.symm]

theorem dropEnd_text (q : Quantity) :
    dropEnd q.suffix.chars.length q.text = String.ofList (natDigits q.number) := by
  rw [dropEnd, text, String.toList_ofList, List.length_append, Nat.add_sub_cancel,
    List.take_left]

theorem exists_letter {suffix : Suffix} (h : suffix ≠ .plain) :
    ∃ c cs, suffix.chars = c :: cs ∧ isDigit c = false ∧ c ≠ '_' := by
  cases suffix with
  | plain => exact absurd rfl h
  | _ => exact ⟨_, _, rfl, by decide, by decide⟩

/-- `int` of a quantity reads it when it has no suffix. -/
theorem parseInt_text : parseInt q.text = .ok n ↔ q.suffix = .plain ∧ n = q.number := by
  by_cases hplain : q.suffix = .plain
  · have htext : q.text = String.ofList (natDigits q.number) := by
      rw [text, hplain, Suffix.chars, List.append_nil]
    rw [htext, parseInt_natDigits q.number_lt, Except.ok.injEq, eq_comm]
    exact (and_iff_right hplain).symm
  · obtain ⟨c, cs, hcs, hdigit, hunderscore⟩ := exists_letter hplain
    refine iff_of_false ?_ fun h => hplain h.1
    rw [text, hcs]
    exact parseInt_ne_ok (hcs ▸ isSpace_chars q.suffix) hdigit hunderscore

/-- **Reading a CPU quantity.** -/
theorem parseCpuMillis_eq_ok :
    parseCpuMillis (.str q.text) = .ok n ↔ q.IsCpu ∧ n = q.millis := by
  rw [parseCpuMillis, string]
  dsimp only [Except.bind]
  rw [strip_text, endsWith_m, IsCpu, millis]
  by_cases hm : q.suffix = .m
  · have hdrop := q.dropEnd_text
    rw [hm] at hdrop
    have hnumber : parseInt (dropEnd 1 q.text) = .ok (q.number : ℤ) := by
      rw [← parseInt_natDigits q.number_lt, ← hdrop]
      rfl
    simp [hm, hnumber, eq_comm]
  · simp only [hm, decide_false, Bool.false_eq_true, if_false, map_eq_ok, parseInt_text, or_false]
    constructor
    · rintro ⟨k, ⟨hplain, rfl⟩, rfl⟩
      exact ⟨hplain, (if_pos hplain).symm⟩
    · rintro ⟨hplain, rfl⟩
      exact ⟨_, ⟨hplain, rfl⟩, (if_pos hplain).symm⟩

/-- The number before a suffix of two letters. -/
theorem parseInt_dropEnd (h : q.suffix.chars.length = 2) :
    parseInt (dropEnd 2 q.text) = .ok (q.number : ℤ) := by
  rw [← h, dropEnd_text, parseInt_natDigits q.number_lt]

/-- **Reading a memory quantity.** -/
theorem parseMemoryKi_eq_ok :
    parseMemoryKi (.str q.text) = .ok n ↔ q.IsMemory ∧ n = q.ki := by
  obtain ⟨hKi, hMi, hGi⟩ := endsWith_binary q
  have hbinary : ∀ factor : ℤ, q.suffix.chars.length = 2 →
      ((parseInt (dropEnd 2 q.text)).map (· * factor) = .ok n ↔ n = q.number * factor) := by
    intro factor hlength
    rw [parseInt_dropEnd hlength, Except.map, Except.ok.injEq, eq_comm]
  rw [parseMemoryKi, string]
  dsimp only [Except.bind]
  rw [strip_text]
  simp only [List.find?_cons, List.find?_nil, hKi, hMi, hGi, IsMemory, ki]
  -- the three binary suffixes, a number of bytes, or a suffix that is no digit
  cases hsuffix : q.suffix with
  | Ki => simpa using hbinary 1 (by rw [hsuffix]; rfl)
  | Mi => simpa using hbinary 1024 (by rw [hsuffix]; rfl)
  | Gi => simpa using hbinary (1024 * 1024) (by rw [hsuffix]; rfl)
  | plain =>
    have hplain : (parseInt q.text).map (· / 1024) = .ok n ↔ n = q.number / 1024 := by
      rw [parseInt_text.2 ⟨hsuffix, rfl⟩, Except.map, Except.ok.injEq, eq_comm]
    simpa using hplain
  | _ =>
    have hother : (parseInt q.text).map (· / 1024) ≠ .ok n := fun h => by
      obtain ⟨k, hk, -⟩ := map_eq_ok.1 h
      rw [(parseInt_text.1 hk).1] at hsuffix
      cases hsuffix
    simpa using hother

end Parse

end Quantity

/-! ### Nodes and Pods -/

/-- A quantity that stands under a key, or is missing. -/
def quantityValue (q : Option Quantity) : Value :=
  match q with
  | some q => .str q.text
  | none => .none

/-- A node with its allocatable quantities. -/
structure Node where
  value : Value
  name : String
  cpu : Quantity
  memory : Quantity
  metadata : Value
  status : Value
  allocatable : Value
  index_metadata : value.index "metadata" = .ok metadata
  index_name : metadata.index "name" = .ok (.str name)
  index_status : value.index "status" = .ok status
  index_allocatable : status.index "allocatable" = .ok allocatable
  index_cpu : allocatable.index "cpu" = .ok (.str cpu.text)
  index_memory : allocatable.index "memory" = .ok (.str memory.text)

/-- A container with what it requests. -/
structure Container where
  value : Value
  cpu : Option Quantity
  memory : Option Quantity
  fields : Items
  resources : Items
  requests : Items
  items_value : value.items = .ok fields
  items_resources : (fields.getOr "resources" (.dict [])).items = .ok resources
  items_requests :
    ((resources.getOr "requests" (.dict [])).orElse (.dict [])).items = .ok requests
  get_cpu : requests.get "cpu" = quantityValue cpu
  get_memory : requests.get "memory" = quantityValue memory

/-- A Pod that is placed on a node. -/
structure Pod where
  value : Value
  node : String
  containers : List Container
  fields : Items
  spec : Items
  node_ne : node ≠ ""
  items_value : value.items = .ok fields
  items_spec : (fields.getOr "spec" (.dict [])).items = .ok spec
  get_node : spec.get "nodeName" = .str node
  iterate_containers :
    (spec.getOr "containers" (.list [])).iterate = .ok (containers.map Container.value)

/-- The answer to `kubectl get pods`. -/
structure Listing where
  value : Value
  pods : List Pod
  items : Value
  index_items : value.index "items" = .ok items
  iterate_items : items.iterate = .ok (pods.map Pod.value)

/-! ### What is read -/

/-- What a container requests of a resource that is read. -/
def Container.millis (container : Container) : ℤ := (container.cpu.map Quantity.millis).getD 0

/-- What a container requests of the memory that is read. -/
def Container.ki (container : Container) : ℤ := (container.memory.map Quantity.ki).getD 0

/-- The requests of a container can be read. -/
def Container.Parses (container : Container) : Prop :=
  (∀ q ∈ container.cpu, q.IsCpu) ∧ ∀ q ∈ container.memory, q.IsMemory

/-- The allocatable quantities of a node can be read. -/
def Node.Parses (node : Node) : Prop := node.cpu.IsCpu ∧ node.memory.IsMemory

/-- The usage that is collected. -/
def usage (pods : List Pod) : List (Scalar × ℤ × ℤ) :=
  pods.flatMap fun pod =>
    pod.containers.map fun container => (.str pod.node, container.millis, container.ki)

/-- The containers on a node. -/
def Node.containers (node : Node) (pods : List Pod) : List Container :=
  (pods.filter fun pod => pod.node = node.name).flatMap Pod.containers

/-- The millicores that are left, as they are read. -/
def Node.freeMillis (node : Node) (pods : List Pod) : ℤ :=
  node.cpu.millis - ((node.containers pods).map Container.millis).sum

/-- The Ki that are left, as they are read. -/
def Node.freeKi (node : Node) (pods : List Pod) : ℤ :=
  node.memory.ki - ((node.containers pods).map Container.ki).sum

/-- The slots of a node that are counted. -/
def Node.slots (node : Node) (pods : List Pod) : ℕ :=
  (min (node.freeMillis pods / podCpuMillis) (node.freeKi pods / podMemoryKi)).toNat

section Read

variable {node : Node} {pods : List Pod} {n : ℤ}

theorem text_ne_empty (q : Quantity) : q.text ≠ "" := fun h => by
  have hnil := congrArg String.toList h
  rw [Quantity.text, String.toList_ofList, String.toList_empty, List.append_eq_nil_iff] at hnil
  exact natDigits_ne_nil _ hnil.1

/-- A quantity that may be missing. -/
theorem quantityOr_eq_ok {parse : Value → Except Exc ℤ} {P : Quantity → Prop}
    {read : Quantity → ℤ} (h : ∀ q n, parse (.str q.text) = .ok n ↔ P q ∧ n = read q)
    (q : Option Quantity) :
    quantityOr parse (quantityValue q) = .ok n ↔ (∀ q' ∈ q, P q') ∧ n = (q.map read).getD 0 := by
  cases q with
  | none => simp [quantityOr, quantityValue, Value.truthy, eq_comm]
  | some q =>
    have htruthy : (Value.str q.text).truthy = true := by simp [Value.truthy, text_ne_empty]
    rw [quantityOr, quantityValue, if_pos htruthy, h]
    simp

theorem containerUsage_eq_ok {name : Scalar} (container : Container) {y : Scalar × ℤ × ℤ} :
    containerUsage name container.value = .ok y ↔
      container.Parses ∧ y = (name, container.millis, container.ki) := by
  have hcpu := fun n => quantityOr_eq_ok (n := n) (fun q n => q.parseCpuMillis_eq_ok) container.cpu
  have hmemory := fun n =>
    quantityOr_eq_ok (n := n) (fun q n => q.parseMemoryKi_eq_ok) container.memory
  simp only [containerUsage, bind_eq_ok, map_eq_ok, container.items_value,
    container.items_resources, container.items_requests, container.get_cpu, container.get_memory,
    Except.ok.injEq, exists_eq_left', hcpu, hmemory]
  constructor
  · rintro ⟨cpu, ⟨hP, rfl⟩, memory, ⟨hQ, rfl⟩, rfl⟩
    exact ⟨⟨hP, hQ⟩, rfl⟩
  · rintro ⟨⟨hP, hQ⟩, rfl⟩
    exact ⟨_, ⟨hP, rfl⟩, _, ⟨hQ, rfl⟩, rfl⟩

theorem podUsage_eq_ok (pod : Pod) {ys : List (Scalar × ℤ × ℤ)} :
    podUsage pod.value = .ok ys ↔ (∀ container ∈ pod.containers, container.Parses) ∧
      ys = pod.containers.map fun container =>
        (.str pod.node, container.millis, container.ki) := by
  have htruthy : (Value.str pod.node).truthy = true := by simp [Value.truthy, pod.node_ne]
  simp only [podUsage, bind_eq_ok, pod.items_value, pod.items_spec, Except.ok.injEq,
    exists_eq_left', pod.get_node, if_pos htruthy, Value.hashed, pod.iterate_containers,
    traverse_map]
  exact traverse_eq_ok_map fun container _ y => containerUsage_eq_ok container

/-- **Collecting the usage** takes requests that can all be read. -/
theorem existingUsage_eq_ok (listing : Listing) {ys : List (Scalar × ℤ × ℤ)} :
    existingUsage listing.value = .ok ys ↔
      (∀ pod ∈ listing.pods, ∀ container ∈ pod.containers, container.Parses) ∧
        ys = usage listing.pods := by
  simp only [existingUsage, bind_eq_ok, listing.index_items, Except.ok.injEq, exists_eq_left',
    listing.iterate_items, gather, map_eq_ok, traverse_map,
    traverse_eq_ok_map fun pod _ y => podUsage_eq_ok pod]
  constructor
  · rintro ⟨lists, ⟨hparses, rfl⟩, rfl⟩
    exact ⟨hparses, rfl⟩
  · rintro ⟨hparses, rfl⟩
    exact ⟨_, ⟨hparses, rfl⟩, rfl⟩

/-- The usage of a node is that of the containers on it. -/
theorem filter_usage (node : Node) (pods : List Pod) :
    ((usage pods).filter fun u => u.1.eq (.str node.name)) =
      (node.containers pods).map fun container =>
        (.str node.name, container.millis, container.ki) := by
  induction pods with
  | nil => rfl
  | cons pod pods ih =>
    have heq : ∀ name : String, (Scalar.str name).eq (.str node.name) = (name == node.name) :=
      fun _ => rfl
    rw [usage, List.flatMap_cons, ← usage, List.filter_append, ih, List.filter_map,
      Node.containers, Node.containers, List.filter_cons]
    by_cases hname : pod.node = node.name
    · simp [Function.comp_def, heq, hname]
    · simp [Function.comp_def, heq, hname]

theorem nodeFit_eq_ok (node : Node) (pods : List Pod) {slots : ℕ} :
    nodeFit (usage pods) node.value = .ok slots ↔ node.Parses ∧ slots = node.slots pods := by
  simp only [nodeFit, bind_eq_ok, map_eq_ok, node.index_metadata, node.index_name,
    node.index_status, node.index_allocatable, node.index_cpu, node.index_memory,
    Except.ok.injEq, exists_eq_left', Value.hashed, Quantity.parseCpuMillis_eq_ok,
    Quantity.parseMemoryKi_eq_ok, filter_usage, List.map_map]
  constructor
  · rintro ⟨cpu, ⟨hcpu, rfl⟩, memory, ⟨hmemory, rfl⟩, rfl⟩
    exact ⟨⟨hcpu, hmemory⟩, rfl⟩
  · rintro ⟨⟨hcpu, hmemory⟩, rfl⟩
    exact ⟨_, ⟨hcpu, rfl⟩, _, ⟨hmemory, rfl⟩, rfl⟩

/-- **Counting the slots** takes allocatable quantities that can all be read. -/
theorem capacityFit_eq_ok (nodes : List Node) (pods : List Pod) {fit : ℕ} :
    capacityFit (nodes.map Node.value) (usage pods) = .ok fit ↔
      (∀ node ∈ nodes, node.Parses) ∧ fit = (nodes.map fun node => node.slots pods).sum := by
  simp only [capacityFit, map_eq_ok, traverse_map,
    traverse_eq_ok_map fun node _ slots => nodeFit_eq_ok node pods]
  constructor
  · rintro ⟨slots, ⟨hparses, rfl⟩, rfl⟩
    exact ⟨hparses, rfl⟩
  · rintro ⟨hparses, rfl⟩
    exact ⟨_, ⟨hparses, rfl⟩, rfl⟩

end Read

/-! ### The exact sums -/

/-- The exact CPU request of a container, in cores. -/
def Container.cpuValue (container : Container) : ℚ := (container.cpu.map Quantity.value).getD 0

/-- The exact memory request of a container, in bytes. -/
def Container.memoryValue (container : Container) : ℚ :=
  (container.memory.map Quantity.value).getD 0

/-- The bytes of a container's request that are left of whole Ki. -/
def Container.oddBytes (container : Container) : ℕ :=
  (container.memory.map Quantity.oddBytes).getD 0

namespace Node

variable (node : Node) (pods : List Pod)

/-- The cores that are left on a node. -/
def freeCpu : ℚ := node.cpu.value - ((node.containers pods).map Container.cpuValue).sum

/-- The bytes that are left on a node. -/
def freeMemory : ℚ := node.memory.value - ((node.containers pods).map Container.memoryValue).sum

/-- The bytes that rounding adds to them: those of the requests less those of the node. -/
def gain : ℚ :=
  (((node.containers pods).map Container.oddBytes).sum : ℕ) - (node.memory.oddBytes : ℚ)

/-- So many probe Pods, of half a core and 256 Mi each, fit on a node. -/
def Fits (n : ℕ) : Prop :=
  n = 0 ∨ (n : ℚ) * (1 / 2) ≤ node.freeCpu pods ∧ (n : ℚ) * (256 * 1024 ^ 2) ≤ node.freeMemory pods

/-- The bytes that rounding adds make room for one more probe Pod. -/
def Straddles : Prop :=
  ∃ n : ℕ, 1 ≤ n ∧ (n : ℚ) * (1 / 2) ≤ node.freeCpu pods ∧
    node.freeMemory pods < n * (256 * 1024 ^ 2) ∧
      (n : ℚ) * (256 * 1024 ^ 2) ≤ node.freeMemory pods + node.gain pods

end Node

/-- The largest number of probe Pods that fit on the nodes. -/
def IsLargestFit (nodes : List Node) (pods : List Pod) (fit : ℕ) : Prop :=
  IsGreatest {total | ∃ placed, List.Forall₂ (fun node n => node.Fits pods n) nodes placed ∧
    total = placed.sum} fit

/-- The usage and the fit are defined, and the fit is the largest number of probe Pods. -/
def Correct (nodes : List Node) (listing : Listing) : Prop :=
  ∃ usage fit, existingUsage listing.value = .ok usage ∧
    capacityFit (nodes.map Node.value) usage = .ok fit ∧ IsLargestFit nodes listing.pods fit

/-- Every quantity is written with a suffix that is known. -/
def Readable (nodes : List Node) (listing : Listing) : Prop :=
  (∀ pod ∈ listing.pods, ∀ container ∈ pod.containers, container.Parses) ∧
    ∀ node ∈ nodes, node.Parses

section Exact

variable {node : Node} {nodes : List Node} {pods : List Pod} {listing : Listing} {n : ℕ}

theorem Quantity.millis_eq {q : Quantity} (h : q.IsCpu) : (q.millis : ℚ) = 1000 * q.value := by
  rcases h with h | h
  · simp [Quantity.millis, Quantity.value, Suffix.factor, h]
    ring
  · simp [Quantity.millis, Quantity.value, Suffix.factor, h]
    ring

theorem Quantity.ki_eq {q : Quantity} (h : q.IsMemory) :
    1024 * (q.ki : ℚ) = q.value - q.oddBytes := by
  rcases h with h | h | h | h <;>
    simp only [Quantity.ki, Quantity.value, Suffix.factor, Quantity.oddBytes, h]
  · have hdiv : (1024 : ℚ) * (q.number / 1024 : ℕ) + (q.number % 1024 : ℕ) = q.number := by
      exact_mod_cast Nat.div_add_mod q.number 1024
    have hcast : ((q.number : ℤ) / 1024 : ℤ) = ((q.number / 1024 : ℕ) : ℤ) := by simp
    rw [if_pos trivial, hcast, Int.cast_natCast]
    linarith
  all_goals
    simp
    ring

theorem Container.millis_eq {container : Container} (h : container.Parses) :
    (container.millis : ℚ) = 1000 * container.cpuValue := by
  have hcpu := h.1
  unfold Container.millis Container.cpuValue
  cases hq : container.cpu with
  | none => simp
  | some q => exact Quantity.millis_eq (hcpu q hq)

theorem Container.ki_eq {container : Container} (h : container.Parses) :
    1024 * (container.ki : ℚ) = container.memoryValue - container.oddBytes := by
  have hmemory := h.2
  unfold Container.ki Container.memoryValue Container.oddBytes
  cases hq : container.memory with
  | none => simp
  | some q => exact Quantity.ki_eq (hmemory q hq)

/-- The sums over containers. -/
theorem sum_millis {containers : List Container} (h : ∀ c ∈ containers, c.Parses) :
    (((containers.map Container.millis).sum : ℤ) : ℚ) =
      1000 * (containers.map Container.cpuValue).sum := by
  induction containers with
  | nil => simp
  | cons container containers ih =>
    rw [List.forall_mem_cons] at h
    simp only [List.map_cons, List.sum_cons, Int.cast_add, ih h.2, Container.millis_eq h.1]
    ring

theorem sum_ki {containers : List Container} (h : ∀ c ∈ containers, c.Parses) :
    1024 * (((containers.map Container.ki).sum : ℤ) : ℚ) =
      (containers.map Container.memoryValue).sum -
        ((containers.map Container.oddBytes).sum : ℕ) := by
  induction containers with
  | nil => simp
  | cons container containers ih =>
    rw [List.forall_mem_cons] at h
    have hrest := ih h.2
    have hki := Container.ki_eq h.1
    simp only [List.map_cons, List.sum_cons, Int.cast_add, Nat.cast_add]
    linarith

/-- The millicores that are read are exact. -/
theorem Node.freeMillis_eq (hnode : node.Parses)
    (hpods : ∀ container ∈ node.containers pods, container.Parses) :
    (node.freeMillis pods : ℚ) = 1000 * node.freeCpu pods := by
  rw [Node.freeMillis, Node.freeCpu, Int.cast_sub, sum_millis hpods, Quantity.millis_eq hnode.1,
    mul_sub]

/-- The Ki that are read gain what is rounded. -/
theorem Node.freeKi_eq (hnode : node.Parses)
    (hpods : ∀ container ∈ node.containers pods, container.Parses) :
    1024 * (node.freeKi pods : ℚ) = node.freeMemory pods + node.gain pods := by
  rw [Node.freeKi, Node.freeMemory, Node.gain, Int.cast_sub, mul_sub, sum_ki hpods,
    Quantity.ki_eq hnode.2]
  ring

/-- Rounding takes less than a Ki away. -/
theorem Node.neg_lt_gain (node : Node) (pods : List Pod) : -1024 < node.gain pods := by
  have hodd : node.memory.oddBytes < 1024 := by
    rw [Quantity.oddBytes]
    split_ifs <;> omega
  have hnode : (node.memory.oddBytes : ℚ) < 1024 := by exact_mod_cast hodd
  have hpods : (0 : ℚ) ≤ (((node.containers pods).map Container.oddBytes).sum : ℕ) :=
    Nat.cast_nonneg _
  rw [Node.gain]
  linarith

theorem le_toNat_min {a b : ℤ} : n ≤ (min a b).toNat ↔ n = 0 ∨ (n : ℤ) ≤ a ∧ (n : ℤ) ≤ b := by
  omega

/-- The largest number of probe Pods on one node. -/
def Node.room (node : Node) (pods : List Pod) : ℕ :=
  (min ⌊node.freeCpu pods / (1 / 2)⌋ ⌊node.freeMemory pods / (256 * 1024 ^ 2)⌋).toNat

theorem Node.fits_iff : node.Fits pods n ↔ n ≤ node.room pods := by
  rw [Node.room, le_toNat_min, Int.le_floor, Int.le_floor, le_div_iff₀ (by norm_num),
    le_div_iff₀ (by norm_num), Int.cast_natCast, Node.Fits]

/-- **The slots that are counted** on one node: what rounding adds counts as room. -/
theorem Node.le_slots_iff (hnode : node.Parses)
    (hpods : ∀ container ∈ node.containers pods, container.Parses) :
    n ≤ node.slots pods ↔ n = 0 ∨ (n : ℚ) * (1 / 2) ≤ node.freeCpu pods ∧
      (n : ℚ) * (256 * 1024 ^ 2) ≤ node.freeMemory pods + node.gain pods := by
  have hcpu : (n : ℤ) ≤ node.freeMillis pods / podCpuMillis ↔
      (n : ℚ) * (1 / 2) ≤ node.freeCpu pods := by
    have heq := Node.freeMillis_eq hnode hpods
    rw [podCpuMillis, Int.le_ediv_iff_mul_le (by norm_num), ← @Int.cast_le ℚ, heq]
    push_cast
    constructor <;> intro h <;> linarith
  have hmemory : (n : ℤ) ≤ node.freeKi pods / podMemoryKi ↔
      (n : ℚ) * (256 * 1024 ^ 2) ≤ node.freeMemory pods + node.gain pods := by
    have heq := Node.freeKi_eq hnode hpods
    rw [podMemoryKi, Int.le_ediv_iff_mul_le (by norm_num), ← @Int.cast_le ℚ, ← heq]
    push_cast
    constructor <;> intro h <;> linarith
  rw [Node.slots, le_toNat_min, hcpu, hmemory]

/-- Rounding is optimistic. -/
theorem Node.room_le_slots (hnode : node.Parses)
    (hpods : ∀ container ∈ node.containers pods, container.Parses) :
    node.room pods ≤ node.slots pods := by
  have hfits : node.Fits pods (node.room pods) := Node.fits_iff.2 le_rfl
  rw [Node.le_slots_iff hnode hpods]
  rcases hfits with hzero | ⟨hcpu, hmemory⟩
  · exact .inl hzero
  · refine .inr ⟨hcpu, ?_⟩
    -- the bytes that are read are whole Ki, and so are those of the Pods
    have heq := Node.freeKi_eq hnode hpods
    have hgain := node.neg_lt_gain pods
    have hki : ((node.room pods : ℤ) * (256 * 1024) : ℚ) < node.freeKi pods + 1 := by
      push_cast
      linarith
    have hle : (node.room pods : ℤ) * (256 * 1024) ≤ node.freeKi pods :=
      Int.lt_add_one_iff.1 (by exact_mod_cast hki)
    have hle' : ((node.room pods : ℤ) * (256 * 1024) : ℚ) ≤ node.freeKi pods := by
      exact_mod_cast hle
    push_cast at hle'
    linarith

/-- The slots of a node are its room unless the bytes that rounding adds reach another Pod's. -/
theorem Node.slots_eq_iff (hnode : node.Parses)
    (hpods : ∀ container ∈ node.containers pods, container.Parses) :
    node.slots pods = node.room pods ↔ ¬node.Straddles pods := by
  rw [← not_iff_not, not_not]
  have hle := Node.room_le_slots hnode hpods
  constructor
  -- the last of the slots is one that only the rounded bytes make room for
  · intro hne
    have hslots := (Node.le_slots_iff (n := node.slots pods) hnode hpods).1 le_rfl
    have hnot : ¬node.Fits pods (node.slots pods) := fun h => hne (by
      have := Node.fits_iff.1 h
      omega)
    rw [Node.Fits, not_or, not_and, not_le] at hnot
    obtain ⟨hcpu, hmemory⟩ := hslots.resolve_left hnot.1
    exact ⟨node.slots pods, Nat.pos_of_ne_zero hnot.1, hcpu, hnot.2 hcpu, hmemory⟩
  · rintro ⟨k, hk, hcpu, hlt, hmemory⟩ heq
    have hslots : k ≤ node.slots pods :=
      (Node.le_slots_iff hnode hpods).2 (.inr ⟨hcpu, hmemory⟩)
    rw [heq, ← Node.fits_iff] at hslots
    rcases hslots with hzero | ⟨-, hfits⟩
    · omega
    · exact absurd hfits (not_le.2 hlt)

/-- The largest fit is the sum of the nodes' room. -/
theorem isLargestFit_room (nodes : List Node) (pods : List Pod) :
    IsLargestFit nodes pods (nodes.map fun node => node.room pods).sum := by
  refine ⟨⟨nodes.map fun node => node.room pods, ?_, rfl⟩, ?_⟩
  · rw [List.forall₂_map_right_iff, List.forall₂_same]
    exact fun node _ => Node.fits_iff.2 le_rfl
  · rintro total ⟨placed, hfits, rfl⟩
    induction hfits with
    | nil => exact le_rfl
    | cons hfit _ ih =>
      rw [List.sum_cons, List.map_cons, List.sum_cons]
      exact Nat.add_le_add (Node.fits_iff.1 hfit) ih

/-- Slots that are nowhere less than the room have its sum only when they are the room. -/
theorem sum_slots_eq_iff (h : ∀ node ∈ nodes, node.room pods ≤ node.slots pods) :
    (nodes.map fun node => node.slots pods).sum = (nodes.map fun node => node.room pods).sum ↔
      ∀ node ∈ nodes, node.slots pods = node.room pods := by
  induction nodes with
  | nil => simp
  | cons node nodes ih =>
    rw [List.forall_mem_cons] at h
    have hle : (nodes.map fun node => node.room pods).sum ≤
        (nodes.map fun node => node.slots pods).sum := List.sum_le_sum h.2
    rw [List.map_cons, List.sum_cons, List.map_cons, List.sum_cons, List.forall_mem_cons,
      ← ih h.2]
    omega

/-- **When the fit is right**: every quantity has a suffix that is known, and on no node the bytes
that rounding adds make room for one more probe Pod. -/
theorem fit_correct_iff (nodes : List Node) (listing : Listing) : Correct nodes listing ↔
    Readable nodes listing ∧ ∀ node ∈ nodes, ¬node.Straddles listing.pods := by
  have hcontainers : Readable nodes listing → ∀ node : Node,
      ∀ container ∈ node.containers listing.pods, container.Parses := by
    intro hreadable node container hcontainer
    obtain ⟨pod, hpod, hmem⟩ := List.mem_flatMap.1 hcontainer
    exact hreadable.1 pod (List.mem_filter.1 hpod).1 container hmem
  -- no node has fewer slots than room, so the sums agree only node by node
  have hsum : Readable nodes listing →
      ((nodes.map fun node => node.slots listing.pods).sum =
          (nodes.map fun node => node.room listing.pods).sum ↔
        ∀ node ∈ nodes, ¬node.Straddles listing.pods) := by
    intro hreadable
    rw [sum_slots_eq_iff fun node hnode =>
      Node.room_le_slots (hreadable.2 node hnode) (hcontainers hreadable node)]
    exact forall₂_congr fun node hnode =>
      Node.slots_eq_iff (hreadable.2 node hnode) (hcontainers hreadable node)
  constructor
  · rintro ⟨ys, fit, husage, hfit, hlargest⟩
    obtain ⟨hpods, rfl⟩ := (existingUsage_eq_ok listing).1 husage
    obtain ⟨hnodes, rfl⟩ := (capacityFit_eq_ok nodes listing.pods).1 hfit
    exact ⟨⟨hpods, hnodes⟩, (hsum ⟨hpods, hnodes⟩).1 (hlargest.unique (isLargestFit_room _ _))⟩
  · rintro ⟨hreadable, hstraddles⟩
    refine ⟨_, _, (existingUsage_eq_ok listing).2 ⟨hreadable.1, rfl⟩,
      (capacityFit_eq_ok nodes listing.pods).2 ⟨hreadable.2, rfl⟩, ?_⟩
    rw [(hsum hreadable).2 hstraddles]
    exact isLargestFit_room nodes listing.pods

/-- A request of 129 megabytes. -/
def megabytes : Quantity := ⟨129, .M, by norm_num⟩

/-- A Pod with that request. -/
def megabytePod : Pod :=
  let requests : Items := [(.str "memory", .str megabytes.text)]
  let resources : Items := [(.str "requests", .dict requests)]
  let fields : Items := [(.str "resources", .dict resources)]
  let spec : Items := [(.str "nodeName", .str "w"), (.str "containers", .list [.dict fields])]
  { value := .dict [(.str "spec", .dict spec)]
    node := "w"
    containers :=
      [{ value := .dict fields, cpu := none, memory := some megabytes
         fields := fields, resources := resources, requests := requests
         items_value := rfl, items_resources := rfl, items_requests := rfl
         get_cpu := rfl, get_memory := rfl }]
    fields := [(.str "spec", .dict spec)]
    spec := spec
    node_ne := by decide
    items_value := rfl
    items_spec := rfl
    get_node := rfl
    iterate_containers := rfl }

/-- The listing of that Pod alone. -/
def megabyteListing : Listing where
  value := .dict [(.str "items", .list [megabytePod.value])]
  pods := [megabytePod]
  items := .list [megabytePod.value]
  index_items := rfl
  iterate_items := rfl

/-- The worker that it is placed on. -/
def worker : Node :=
  let metadata : Value := .dict [(.str "name", .str "w"), (.str "labels", .dict [])]
  let allocatable : Value := .dict [(.str "cpu", .str "4"), (.str "memory", .str "8Gi")]
  { value := .dict [(.str "metadata", metadata),
      (.str "status", .dict [(.str "allocatable", allocatable)])]
    name := "w"
    cpu := ⟨4, .plain, by norm_num⟩
    memory := ⟨8, .Gi, by norm_num⟩
    metadata := metadata
    status := .dict [(.str "allocatable", allocatable)]
    allocatable := allocatable
    index_metadata := rfl
    index_name := rfl
    index_status := rfl
    index_allocatable := rfl
    index_cpu := rfl
    index_memory := rfl }

/-- There is no usage with it. -/
theorem unreadable : ¬Correct [worker] megabyteListing := by
  rintro ⟨ys, fit, husage, -⟩
  have hparses := ((existingUsage_eq_ok megabyteListing).1 husage).1 megabytePod
    List.mem_cons_self _ List.mem_cons_self
  rcases hparses.2 megabytes rfl with h | h | h | h <;> cases h

end Exact

end Capacity

end KubeSched
