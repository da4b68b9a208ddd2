import K8Labs.Python.Json
import Mathlib.Data.List.Dedup

/-!
# Model bundles

`research/cpu-limits/phase8/model/bundle.py` validates a bundle by a long sequence of checks, each
of which lets the document pass or raises.  `bundleChecks` is that sequence in the order of the
source; a check that is not reached says nothing, so later checks may read fields that an earlier
one has found missing.  `validateBundle` runs the checks up to the first that raises.

* `Check.run` is what one check does.  `Check.Foreign` are the inputs on which it raises something
  else than `BundleError`: an unhashable value in a set test, an integer beyond the floats, a
  document whose canonical text cannot be computed, a document that is no object.
* `validateBundle_errors_iff` says exactly when **only `BundleError` is raised and every count that
  is accepted is an integer and no boolean.**

The digest of the canonical text is a parameter, and so is the number of containers that may be
nested before the interpreter's recursion limit.
-/

namespace Phase8.Bundle

open Py

/-- What leaves `validate_bundle` when it does not return. -/
inductive BundleFault where
  /-- `BundleError`. -/
  | bundleError (message : String)
  /-- An exception of the interpreter. -/
  | other (exc : Exc)
  deriving DecidableEq

/-! ### Values -/

/-- What a check sees of a value: a scalar, or which container it is. -/
inductive Head where
  | scalar (s : Scalar)
  | list
  | dict
  deriving DecidableEq

/-- The head of a value. -/
def head : Value → Head
  | .scalar s => .scalar s
  | .list _ => .list
  | .dict _ => .dict

namespace Head

/-- `isinstance(v, str)`. -/
def isStr : Head → Bool
  | scalar (.str _) => true
  | _ => false

/-- A string that is not empty. -/
def isText : Head → Bool
  | scalar (.str s) => s != ""
  | _ => false

/-- `v == text`. -/
def isEq (h : Head) (text : String) : Bool := h == scalar (.str text)

/-- The integer of a value that is an `int`; `True` and `False` are. -/
def asInt : Head → Option ℤ
  | scalar (.bool b) => some (if b then 1 else 0)
  | scalar (.int n) => some n
  | _ => none

/-- `isinstance(v, bool)`. -/
def isBool : Head → Bool
  | scalar (.bool _) => true
  | _ => false

/-- The number of an integer or a finite float, in comparisons. -/
def number : Head → ℚ
  | scalar (.bool b) => if b then 1 else 0
  | scalar (.int n) => n
  | scalar (.float f) => f.toRat
  | _ => 0

/-- A value whose hash can be computed. -/
def isHashable : Head → Bool
  | scalar _ => true
  | _ => false

end Head

/-- The head of `mapping.get(field)`. -/
def peek (mapping : Items) (field : String) : Head := head (mapping.get field)

/-- `field in mapping`. -/
def present (mapping : Items) (field : String) : Bool := (mapping.lookup field).isSome

/-! ### Checks -/

/-- A check of `validate_bundle`. -/
inductive Check where
  /-- `if not holds: raise BundleError(message)`. -/
  | require (holds : Bool) (message : String)
  /-- `if v not in {…}: raise BundleError(message)`. -/
  | member (v : Head) (allowed : List String) (message : String)
  /-- `_finite_number`. -/
  | finite (v : Head) (field : String)
  /-- `_reject_unknown`, with the keys that are not allowed. -/
  | unknown (keys : List Scalar) (field : String)
  /-- The recorded hash against the hash of the content. -/
  | contentHash (recorded : Head) (expected : Except Exc String)
  /-- An operation that a document of this kind does not support. -/
  | unsupported (message : String)

/-- `sorted(unknown)` and `', '.join(unknown)`: the text of the unknown fields, when all are
strings. -/
def unknownText (keys : List Scalar) : String :=
  ", ".intercalate ((keys.map Scalar.text).dedup.insertionSort (· ≤ ·))

/-- A string key. -/
def isStrKey : Scalar → Bool
  | .str _ => true
  | _ => false

/-- What a check does. -/
def Check.run : Check → Except BundleFault Unit
  | require holds message => if holds then .ok () else .error (.bundleError message)
  | member v allowed message =>
    if v.isHashable then
      if allowed.any v.isEq then .ok () else .error (.bundleError message)
    else .error (.other ⟨.typeError, "unhashable type"⟩)
  | finite v field =>
    match v with
    | .scalar (.int n) =>
      match floatOfInt n with
      | .ok _ => .ok ()
      | .error exc => .error (.other exc)
    | .scalar (.float f) =>
      if f.isFinite then .ok () else .error (.bundleError (field ++ " must be finite"))
    | _ => .error (.bundleError (field ++ " must be a number"))
  | unknown keys field =>
    if keys = [] then .ok ()
    else if keys.all isStrKey then
      .error (.bundleError (field ++ " contains unsupported fields: " ++ unknownText keys))
    else .error (.other ⟨.typeError, "sequence item: expected str instance"⟩)
  | contentHash recorded expected =>
    let mismatch := BundleFault.bundleError "model_hash does not match canonical bundle content"
    if recorded.isStr then
      match expected with
      | .ok hash => if recorded.isEq hash then .ok () else .error mismatch
      | .error exc => .error (.other exc)
    else .error mismatch
  | unsupported message => .error (.other ⟨.typeError, message⟩)

/-- The checks one after the other, up to the first that raises. -/
def runChecks : List Check → Except BundleFault Unit
  | [] => .ok ()
  | check :: checks =>
    match check.run with
    | .ok () => runChecks checks
    | .error fault => .error fault

/-- `_reject_unknown`. -/
def rejectUnknown (mapping : Items) (allowed : List String) (field : String) : Check :=
  .unknown ((mapping.map Prod.fst).filter fun key => !allowed.any fun name => key == .str name) field

/-- `_require_mapping`, with the checks of the mapping. -/
def requireMapping (document : Items) (field : String) (checks : Items → List Check) :
    List Check :=
  match (document.get field).asDict with
  | some mapping => checks mapping
  | none => [.require false (field ++ " must be an object")]

/-! ### The sections of a bundle -/

/-- `REQUIRED_FIELDS`. -/
def requiredFields : List String :=
  ["schema_version", "model_id", "model_hash", "created_at", "provenance", "workload", "telemetry",
    "factors", "slo", "policy_defaults", "response", "exclusions"]

/-- The required fields that are missing. -/
def requireFields (isIn : String → Bool) : Check :=
  let missing := requiredFields.filter fun field => !isIn field
  .require missing.isEmpty ("missing required fields: " ++ ", ".intercalate missing)

/-- The identity of the bundle. -/
def identityChecks (document : Items) : List Check :=
  [.require ((peek document "schema_version").isEq "cpu-limit-model/v1") "unsupported schema_version",
    .require (match peek document "model_id" with
      | .scalar (.str s) => s != "" && decide (s.length ≤ 128)
      | _ => false) "model_id must be a non-empty string of at most 128 characters"]

/-- The range of the trials: a count that is an integer and no boolean. -/
def isCount (v : Head) : Bool :=
  match v with
  | .scalar (.int n) => decide (0 ≤ n)
  | _ => false

/-- The section `provenance`. -/
def provenanceChecks (provenance : Items) : List Check :=
  rejectUnknown provenance
      ["generator", "campaign_id", "protocol_version", "git_revision", "trials_total",
        "trials_usable", "cluster_baseline"] "provenance" ::
    (["generator", "campaign_id", "protocol_version"].map fun field =>
      .require (peek provenance field).isText ("provenance." ++ field ++ " is required")) ++
    (["trials_total", "trials_usable"].map fun field =>
      .require (isCount (peek provenance field))
        ("provenance." ++ field ++ " must be a non-negative integer")) ++
    [.require (decide ((peek provenance "trials_usable").number ≤
        (peek provenance "trials_total").number))
      "provenance.trials_usable cannot exceed trials_total"] ++
    if present provenance "cluster_baseline" then
      requireMapping provenance "cluster_baseline" fun baseline =>
        rejectUnknown baseline ["kubernetes_version", "container_runtime"]
            "provenance.cluster_baseline" ::
          ["kubernetes_version", "container_runtime"].map fun field =>
            .require (peek baseline field).isStr
              ("provenance.cluster_baseline." ++ field ++ " is required")
    else []

/-- The containers of the workload; `names` are those seen so far. -/
def containerChecks : List String → List Value → List Check
  | _, [] => []
  | names, container :: containers =>
    match container.asDict with
    | none => [.require false "workload.containers entries must be objects"]
    | some container =>
      let name := match peek container "name" with
        | .scalar (.str s) => s
        | _ => ""
      [rejectUnknown container ["name", "role"] "workload.containers",
        .require (peek container "name").isText "workload.containers.name is required",
        .member (peek container "role") ["app", "sidecar"] "workload.containers.role is invalid",
        .require (!names.contains name) "workload container names must be unique"] ++
      containerChecks (names ++ [name]) containers

/-- The elements of a list that is not empty, with the checks of the elements. -/
def requireList (v : Value) (message : String) (checks : List Value → List Check) : List Check :=
  match v.asList with
  | some (x :: xs) => checks (x :: xs)
  | _ => [.require false message]

/-- The section `workload`. -/
def workloadChecks (workload : Items) : List Check :=
  rejectUnknown workload ["profile", "contract_version", "containers"] "workload" ::
    (["profile", "contract_version", "containers"].map fun field =>
      .require (present workload field) ("workload." ++ field ++ " is required")) ++
    [.require ((peek workload "contract_version").isEq "db-cache-mixed/v1")
      "unsupported workload.contract_version"] ++
    requireList (workload.get "containers") "workload.containers must be non-empty"
      (containerChecks [])

/-- A signal of a known group: the text before the first point. -/
def isSignal (v : Head) : Bool :=
  match v with
  | .scalar (.str s) =>
    ["request", "dependency", "resource", "hpa"].contains
      (String.ofList (s.toList.takeWhile (· != '.')))
  | _ => false

/-- The section `telemetry`. -/
def telemetryChecks (telemetry : Items) : List Check :=
  [rejectUnknown telemetry ["contract_version", "required_signals"] "telemetry",
    .require ((peek telemetry "contract_version").isEq "cpu-limit-telemetry/v1")
      "unsupported telemetry.contract_version"] ++
    requireList (telemetry.get "required_signals") "telemetry.required_signals must be non-empty"
      fun signals => signals.map fun signal =>
        .require (isSignal (head signal)) "telemetry.required_signals contains an invalid signal"

/-- The range of a factor. -/
def rangeChecks (field : String) (range : Items) : List Check :=
  [rejectUnknown range ["min", "max"] ("factors." ++ field),
    .finite (peek range "min") ("factors." ++ field ++ ".min"),
    .finite (peek range "max") ("factors." ++ field ++ ".max"),
    .require (decide ((peek range "min").number ≤ (peek range "max").number))
      ("factors." ++ field ++ " min exceeds max")]

/-- The section `factors`. -/
def factorChecks (factors : Items) : List Check :=
  rejectUnknown factors
      ["cpu_limit_millicores", "replicas", "request_rate_per_second", "mix", "contention",
        "cpu_request_millicores", "node_capacity_millicores", "postgres_capacity",
        "redis_capacity"] "factors" ::
    (["cpu_limit_millicores", "replicas", "request_rate_per_second", "cpu_request_millicores",
        "node_capacity_millicores"].flatMap fun field =>
      requireMapping factors field (rangeChecks field)) ++
    ["mix", "contention"].flatMap fun field =>
      requireList (factors.get field) ("factors." ++ field ++ " must contain non-empty levels")
        fun levels => [.require (levels.all fun level => (head level).isText)
          ("factors." ++ field ++ " must contain non-empty levels")]

/-- A number between zero and one. -/
def isRatio (v : Head) : Bool := decide (0 ≤ v.number) && decide (v.number ≤ 1)

/-- The section `slo`. -/
def sloChecks (slo : Items) : List Check :=
  let fields := ["max_p99_latency_ms", "min_throughput_rps", "max_error_ratio",
    "min_availability_ratio"]
  rejectUnknown slo fields "slo" ::
    (fields.map fun field => .finite (peek slo field) ("slo." ++ field)) ++
    [.require (decide (0 < (peek slo "max_p99_latency_ms").number) &&
        decide (0 ≤ (peek slo "min_throughput_rps").number) &&
        isRatio (peek slo "max_error_ratio") && isRatio (peek slo "min_availability_ratio"))
      "slo values are outside allowed ranges"]

/-- `isinstance(v, int) and v >= 1`; a boolean passes. -/
def isPositiveInt (v : Head) : Bool := v.asInt.any fun n => decide (1 ≤ n)

/-- The section `policy_defaults`. -/
def policyChecks (policy : Items) : List Check :=
  [rejectUnknown policy
      ["confidence_level", "latency_margin_ratio", "headroom_ratio", "min_replicas",
        "max_replicas"] "policy_defaults",
    .finite (peek policy "confidence_level") "policy_defaults.confidence_level",
    .require (decide (1 / 2 < (peek policy "confidence_level").number) &&
        decide ((peek policy "confidence_level").number ≤ 999 / 1000))
      "policy_defaults.confidence_level must be above 0.5"] ++
    (["latency_margin_ratio", "headroom_ratio"].flatMap fun field =>
      [.finite (peek policy field) ("policy_defaults." ++ field),
        .require (isRatio (peek policy field)) ("policy_defaults." ++ field ++ " is outside [0, 1]")]) ++
    [.require (isPositiveInt (peek policy "min_replicas") &&
        isPositiveInt (peek policy "max_replicas") &&
        decide ((peek policy "min_replicas").number ≤ (peek policy "max_replicas").number))
      "policy replica bounds are invalid"]

/-- The conditions of a response row. -/
def conditionChecks (name : String) (conditions : Items) : List Check :=
  rejectUnknown conditions
      ["mix", "postgres_capacity", "redis_capacity", "node_capacity_millicores"]
      (name ++ ".conditions") ::
    (["mix", "postgres_capacity", "redis_capacity"].map fun field =>
      .require (peek conditions field).isText (name ++ ".conditions." ++ field ++ " is required")) ++
    [.require (isPositiveInt (peek conditions "node_capacity_millicores"))
      (name ++ ".conditions.node_capacity_millicores is invalid")]

/-- The fields of a response row. -/
def rowFields : List String :=
  ["conditions", "cpu_limit_millicores", "cpu_request_millicores", "replicas",
    "request_rate_per_second", "contention", "p50_latency_ms", "p99_latency_ms", "p99_upper_ms",
    "throughput_rps", "error_ratio", "availability_ratio", "cpu_usage_millicores",
    "throttle_ratio", "throttled_ms_per_second", "dependency_bound", "samples", "valid",
    "invalid_reason"]

/-- A row of the response. -/
def rowChecks (name : String) (row : Items) : List Check :=
  rejectUnknown row rowFields name ::
    (["conditions", "samples", "valid"].map fun field =>
      .require (present row field) (name ++ "." ++ field ++ " is required")) ++
    [.require (isPositiveInt (peek row "samples")) (name ++ ".samples must be positive"),
      .require (peek row "valid").isBool (name ++ ".valid must be boolean"),
      .member (if present row "dependency_bound" then peek row "dependency_bound"
          else .scalar (.str "no"))
        ["no", "postgres", "redis", "load_generator", "unknown"]
        (name ++ ".dependency_bound is invalid")] ++
    (match (row.get "conditions").asDict with
      | some conditions => conditionChecks name conditions
      | none => [.require false (name ++ ".conditions must be an object")]) ++
    (["cpu_limit_millicores", "cpu_request_millicores", "replicas", "request_rate_per_second",
        "p99_latency_ms", "p99_upper_ms", "throughput_rps", "error_ratio",
        "availability_ratio"].flatMap fun field =>
      [.require (present row field) (name ++ "." ++ field ++ " is required"),
        .finite (peek row field) (name ++ "." ++ field)]) ++
    (["cpu_limit_millicores", "cpu_request_millicores", "replicas"].map fun field =>
      .require (isPositiveInt (peek row field)) (name ++ "." ++ field ++ " must be a positive integer")) ++
    ["error_ratio", "availability_ratio"].map fun field =>
      .require (isRatio (peek row field)) (name ++ "." ++ field ++ " is outside [0, 1]")

/-- The rows of the response, from the given index on. -/
def responseChecks : ℕ → List Value → List Check
  | _, [] => []
  | index, row :: rows =>
    let name := "response[" ++ toString index ++ "]"
    (match row.asDict with
      | some row => rowChecks name row
      | none => [.require false (name ++ " must be an object")]) ++
    responseChecks (index + 1) rows

/-! ### The bundle -/

section Validate

variable (digest : List Char → String) (depth : ℕ)

/-- `_hash_input`. -/
def hashInput (document : Items) : Items := document.filter fun item => item.1 != .str "model_hash"

/-- `canonical_json`. -/
def canonicalJson (document : Items) : Except Exc (List Char) := Json.dumps .compact depth (.dict document)

/-- `_expected_hash`. -/
def expectedHash (document : Items) : Except Exc String :=
  (canonicalJson depth (hashInput document)).map fun text => "sha256:" ++ digest text

/-- The checks of a document that is an object. -/
def objectChecks (document : Items) : List Check :=
  [requireFields (present document), rejectUnknown document requiredFields "bundle"] ++
    identityChecks document ++
    [.contentHash (peek document "model_hash") (expectedHash digest depth document)] ++
    requireMapping document "provenance" provenanceChecks ++
    requireMapping document "workload" workloadChecks ++
    requireMapping document "telemetry" telemetryChecks ++
    requireMapping document "factors" factorChecks ++
    requireMapping document "slo" sloChecks ++
    requireMapping document "policy_defaults" policyChecks ++
    requireList (document.get "response") "response must be non-empty" (responseChecks 0)

/-- The scalars of a list. -/
def scalars (xs : List Value) : List Scalar :=
  xs.filterMap fun
    | .scalar s => some s
    | _ => none

/-- The checks of any document.  A list and a string have elements and can be searched, but not
indexed with a name; other scalars cannot be searched at all. -/
def bundleChecks : Value → List Check
  | .dict document => objectChecks digest depth document
  | .list xs =>
    [requireFields fun field => xs.any fun x => x.eq (.str field)] ++
      (if xs.all fun x => (head x).isHashable then [] else [.unsupported "unhashable type"]) ++
      [rejectUnknown ((scalars xs).map fun s => (s, .none)) requiredFields "bundle",
        .unsupported "list indices must be integers or slices, not str"]
  | .scalar (.str s) =>
    [requireFields fun field => s.toList.tails.any field.toList.isPrefixOf,
      rejectUnknown (s.toList.map fun c => (.str c.toString, .none)) requiredFields "bundle",
      .unsupported "string indices must be integers, not 'str'"]
  | .scalar _ => [.unsupported "argument is not iterable"]

/-- `validate_bundle`. -/
def validateBundle (document : Value) : Except BundleFault Unit :=
  runChecks (bundleChecks digest depth document)

end Validate

/-! ### What a check raises -/

namespace Check

/-- The check lets the document pass. -/
def Passes (check : Check) : Prop := check.run = .ok ()

/-- The inputs on which a check raises something else than `BundleError`. -/
def Foreign : Check → Prop
  | require _ _ => False
  | member v _ _ => v.isHashable = false
  | finite v _ => ∃ n : ℤ, v = .scalar (.int n) ∧ floatBound ≤ n.natAbs
  | unknown keys _ => ∃ key ∈ keys, isStrKey key = false
  | contentHash recorded expected => recorded.isStr = true ∧ ∃ exc, expected = .error exc
  | unsupported _ => True

theorem floatOfInt_eq_error {n : ℤ} :
    (∃ exc, floatOfInt n = .error exc) ↔ floatBound ≤ n.natAbs := by
  unfold floatOfInt
  split_ifs with h
  · simp only [exists_false, false_iff]
    exact Nat.not_le.2 h
  · simp only [Except.error.injEq, exists_eq', true_iff]
    exact Nat.not_lt.1 h

theorem run_eq_other_iff (check : Check) :
    (∃ exc, check.run = .error (.other exc)) ↔ check.Foreign := by
  cases check with
  | require holds message => cases holds <;> simp [run, Foreign]
  | member v allowed message =>
    cases hv : v.isHashable
    · simp [run, Foreign, hv]
    · cases hm : allowed.any v.isEq <;> simp [run, Foreign, hv, hm]
  | finite v field =>
    match v with
    | .scalar (.int n) =>
      -- an integer too large for a float is the one number that raises
      have hfloat := floatOfInt_eq_error (n := n)
      have hforeign : (finite (.scalar (.int n)) field).Foreign ↔
          floatBound ≤ n.natAbs := by simp [Foreign]
      rw [hforeign, ← hfloat]
      cases h : floatOfInt n <;> simp [run, h]
    | .scalar (.float f) => cases hf : f.isFinite <;> simp [run, Foreign, hf]
    | .scalar .none => simp [run, Foreign]
    | .scalar (.bool _) => simp [run, Foreign]
    | .scalar (.str _) => simp [run, Foreign]
    | .scalar (.stamp _) => simp [run, Foreign]
    | .list => simp [run, Foreign]
    | .dict => simp [run, Foreign]
  | unknown keys field =>
    by_cases hnil : keys = []
    · simp [run, Foreign, hnil]
    · cases hall : keys.all isStrKey
      · have : ∃ key ∈ keys, isStrKey key = false := by simpa using hall
        simp [run, Foreign, hnil, hall, this]
      · have : ∀ key ∈ keys, isStrKey key = true := by simpa using hall
        simp [run, Foreign, hnil, hall]
        exact this
  | contentHash recorded expected =>
    cases hr : recorded.isStr
    · simp [run, Foreign, hr]
    · cases expected with
      | error exc => simp [run, Foreign, hr]
      | ok hash => cases he : recorded.isEq hash <;> simp [run, Foreign, hr, he]
  | unsupported message => simp [run, Foreign]

@[simp] theorem passes_require {holds : Bool} {message : String} :
    (require holds message).Passes ↔ holds = true := by
  cases holds <;> simp [Passes, run]

theorem passes_finite {v : Head} {field : String} (h : (finite v field).Passes) :
    (∃ n, v = .scalar (.int n)) ∨ ∃ f, v = .scalar (.float f) := by
  match v with
  | .scalar (.int n) => exact .inl ⟨n, rfl⟩
  | .scalar (.float f) => exact .inr ⟨f, rfl⟩
  | .scalar .none => cases h
  | .scalar (.bool _) => cases h
  | .scalar (.str _) => cases h
  | .scalar (.stamp _) => cases h
  | .list => cases h
  | .dict => cases h

@[simp] theorem not_passes_unsupported {message : String} : ¬ (unsupported message).Passes := by
  simp [Passes, run]

end Check

theorem runChecks_eq_ok {checks : List Check} :
    runChecks checks = .ok () ↔ ∀ check ∈ checks, check.Passes := by
  induction checks with
  | nil => simp [runChecks]
  | cons check checks ih =>
    rw [runChecks, List.forall_mem_cons, Check.Passes]
    cases h : check.run with
    | ok _ => simp [ih]
    | error fault => simp

/-- A check is *reached* when all before it pass. -/
def Reached (checks : List Check) (check : Check) : Prop :=
  ∃ before after, checks = before ++ check :: after ∧ ∀ c ∈ before, c.Passes

/-- What is raised is raised by a check that was reached. -/
theorem runChecks_eq_error {checks : List Check} {fault : BundleFault} :
    runChecks checks = .error fault ↔
      ∃ check, Reached checks check ∧ check.run = .error fault := by
  induction checks with
  | nil =>
    simp only [runChecks, reduceCtorEq, false_iff, not_exists, not_and]
    rintro check ⟨before, after, hsplit, -⟩
    simp at hsplit
  | cons first checks ih =>
    rw [runChecks]
    -- the first check is the only one reached when it fails
    cases h : first.run with
    | error fault' =>
      simp only [Except.error.injEq]
      constructor
      · rintro rfl
        exact ⟨first, ⟨[], checks, rfl, by simp⟩, h⟩
      · rintro ⟨check, ⟨before, after, hsplit, hpass⟩, hrun⟩
        cases before with
        | nil =>
          obtain ⟨rfl, -⟩ := List.cons.inj hsplit
          rw [h] at hrun
          exact Except.error.inj hrun
        | cons c before =>
          obtain ⟨rfl, -⟩ := List.cons.inj hsplit
          have := hpass first List.mem_cons_self
          rw [Check.Passes, h] at this
          cases this
    | ok _ =>
      dsimp only
      rw [ih]
      constructor
      · rintro ⟨check, ⟨before, after, rfl, hpass⟩, hrun⟩
        refine ⟨check, ⟨first :: before, after, rfl, ?_⟩, hrun⟩
        rw [List.forall_mem_cons]
        exact ⟨h, hpass⟩
      · rintro ⟨check, ⟨before, after, hsplit, hpass⟩, hrun⟩
        cases before with
        | nil =>
          obtain ⟨rfl, -⟩ := List.cons.inj hsplit
          rw [h] at hrun
          cases hrun
        | cons c before =>
          obtain ⟨rfl, rfl⟩ := List.cons.inj hsplit
          rw [List.forall_mem_cons] at hpass
          exact ⟨check, ⟨before, after, rfl, hpass.2⟩, hrun⟩

/-! ### Counts -/

/-- The mapping under a field. -/
def mappingAt (mapping : Items) (field : String) : Items := (mapping.get field).asDict.getD []

/-- The fields of a document that are checked as integer counts: those of the document itself, and
those of each row of the response. -/
def countsAt (fields : Items → List Head) (rowFields : Items → List Head) : Value → List Head
  | .dict document =>
    fields document ++
      ((Items.get document "response").asList.getD []).flatMap fun row =>
        rowFields (row.asDict.getD [])
  | _ => []

/-- The heads of all counts. -/
def countFields : Value → List Head :=
  countsAt
    (fun document =>
      ["trials_total", "trials_usable"].map (peek (mappingAt document "provenance")) ++
        ["min_replicas", "max_replicas"].map (peek (mappingAt document "policy_defaults")))
    fun row =>
      ["samples", "cpu_limit_millicores", "cpu_request_millicores", "replicas"].map (peek row) ++
        [peek (mappingAt row "conditions") "node_capacity_millicores"]

/-- The heads of the counts that are checked with `isinstance(v, int)` alone. -/
def looseCounts : Value → List Head :=
  countsAt
    (fun document =>
      ["min_replicas", "max_replicas"].map (peek (mappingAt document "policy_defaults")))
    fun row =>
      [peek row "samples", peek (mappingAt row "conditions") "node_capacity_millicores"]

theorem passes_requireMapping {document : Items} {field : String} {checks : Items → List Check}
    (h : ∀ check ∈ requireMapping document field checks, check.Passes) :
    ∀ check ∈ checks (mappingAt document field), check.Passes := by
  unfold requireMapping at h
  unfold mappingAt
  cases hd : (document.get field).asDict with
  | none => simp [hd] at h
  | some mapping => simpa [hd] using h

theorem passes_requireList {v : Value} {message : String} {checks : List Value → List Check}
    (h : ∀ check ∈ requireList v message checks, check.Passes) :
    ∀ check ∈ checks (v.asList.getD []), check.Passes := by
  unfold requireList at h
  cases hl : v.asList with
  | none => simp [hl] at h
  | some xs =>
    cases xs with
    | nil => simp [hl] at h
    | cons x xs => simpa [hl] using h

theorem passes_responseChecks {index : ℕ} {rows : List Value}
    (h : ∀ check ∈ responseChecks index rows, check.Passes) :
    ∀ row ∈ rows, ∃ name, ∀ check ∈ rowChecks name (row.asDict.getD []), check.Passes := by
  induction rows generalizing index with
  | nil => simp
  | cons row rows ih =>
    rw [responseChecks] at h
    simp only [List.forall_mem_append] at h
    rw [List.forall_mem_cons]
    refine ⟨⟨"response[" ++ toString index ++ "]", ?_⟩, ih h.2⟩
    cases hd : row.asDict with
    | none =>
      have := h.1
      simp [hd] at this
    | some row =>
      have := h.1
      simpa [hd] using this

theorem isInt_of_isCount {v : Head} (h : isCount v = true) : ∃ n, v = .scalar (.int n) := by
  unfold isCount at h
  split at h
  · next n => exact ⟨n, rfl⟩
  · cases h

/-- What `isinstance(v, int) and v >= 1` lets through: an integer, unless it is a boolean. -/
theorem isInt_iff_of_isPositiveInt {v : Head} (h : isPositiveInt v = true) :
    (∃ n, v = .scalar (.int n)) ↔ v.isBool = false := by
  unfold isPositiveInt Head.asInt at h
  split at h
  · simp [Head.isBool]
  · simp [Head.isBool]
  · simp at h

theorem isInt_of_finite {v : Head} (field : String) (h : isPositiveInt v = true)
    (hf : (Check.finite v field).Passes) : ∃ n, v = .scalar (.int n) := by
  rcases Check.passes_finite hf with hint | ⟨f, rfl⟩
  · exact hint
  · cases h

theorem passes_policy {policy : Items} (h : ∀ check ∈ policyChecks policy, check.Passes) :
    ∀ field ∈ ["min_replicas", "max_replicas"], isPositiveInt (peek policy field) = true := by
  have hlast : Check.Passes (.require (isPositiveInt (peek policy "min_replicas") &&
      isPositiveInt (peek policy "max_replicas") &&
      decide ((peek policy "min_replicas").number ≤ (peek policy "max_replicas").number))
      "policy replica bounds are invalid") := h _ (by simp [policyChecks])
  rw [Check.passes_require, Bool.and_eq_true, Bool.and_eq_true] at hlast
  simpa using hlast.1

theorem passes_provenance {provenance : Items}
    (h : ∀ check ∈ provenanceChecks provenance, check.Passes) :
    ∀ field ∈ ["trials_total", "trials_usable"], isCount (peek provenance field) = true := by
  intro field hfield
  have := h (.require (isCount (peek provenance field))
    ("provenance." ++ field ++ " must be a non-negative integer")) (by
      unfold provenanceChecks
      simp only [List.mem_append, List.mem_cons, List.mem_map]
      exact .inl (.inl (.inr ⟨field, by simpa using hfield, rfl⟩)))
  exact Check.passes_require.1 this

/-- What a row that passes says of its counts. -/
theorem passes_row {name : String} {row : Items} (h : ∀ check ∈ rowChecks name row, check.Passes) :
    isPositiveInt (peek row "samples") = true ∧
      isPositiveInt (peek (mappingAt row "conditions") "node_capacity_millicores") = true ∧
      ∀ field ∈ ["cpu_limit_millicores", "cpu_request_millicores", "replicas"],
        ∃ n, peek row field = .scalar (.int n) := by
  unfold rowChecks at h
  obtain ⟨h, -⟩ := List.forall_mem_append.1 h
  obtain ⟨h, hpositive⟩ := List.forall_mem_append.1 h
  obtain ⟨h, hfinite⟩ := List.forall_mem_append.1 h
  obtain ⟨h, hconditions⟩ := List.forall_mem_append.1 h
  obtain ⟨-, hsamples⟩ := List.forall_mem_append.1 h
  rw [List.forall_mem_cons, Check.passes_require] at hsamples
  refine ⟨hsamples.1, ?_, fun field hfield => ?_⟩
  · unfold mappingAt
    cases hd : (row.get "conditions").asDict with
    | none => simp [hd] at hconditions
    | some conditions =>
      simp only [hd] at hconditions
      exact Check.passes_require.1 (hconditions (.require
        (isPositiveInt (peek conditions "node_capacity_millicores"))
        (name ++ ".conditions.node_capacity_millicores is invalid")) (by simp [conditionChecks]))
  · have hpos : isPositiveInt (peek row field) = true :=
      Check.passes_require.1 (hpositive _ (List.mem_map_of_mem hfield))
    refine isInt_of_finite (name ++ "." ++ field) hpos (hfinite _ ?_)
    refine List.mem_flatMap.2 ⟨field, ?_, by simp⟩
    exact List.mem_append_left _ hfield

theorem forall_mem_countsAt {fields fields' rowFields rowFields' : Items → List Head}
    {P Q : Head → Prop} {document : Items}
    (hfields : (∀ v ∈ fields document, P v) ↔ ∀ v ∈ fields' document, Q v)
    (hrows : ∀ row ∈ (Items.get document "response").asList.getD [],
      (∀ v ∈ rowFields (row.asDict.getD []), P v) ↔ ∀ v ∈ rowFields' (row.asDict.getD []), Q v) :
    (∀ v ∈ countsAt fields rowFields (.dict document), P v) ↔
      ∀ v ∈ countsAt fields' rowFields' (.dict document), Q v := by
  simp only [countsAt, List.forall_mem_append, hfields, List.forall_mem_flatMap]
  refine and_congr_right fun _ => forall_congr' fun row => ?_
  exact ⟨fun h hrow => (hrows row hrow).1 (h hrow), fun h hrow => (hrows row hrow).2 (h hrow)⟩

/-- In a document whose checks all pass, the counts are integers exactly when the loosely checked
ones are no booleans. -/
theorem countFields_iff {digest : List Char → String} {depth : ℕ} {document : Value}
    (h : ∀ check ∈ bundleChecks digest depth document, check.Passes) :
    (∀ v ∈ countFields document, ∃ n, v = .scalar (.int n)) ↔
      ∀ v ∈ looseCounts document, v.isBool = false := by
  match document with
  | .dict document =>
    simp only [bundleChecks] at h
    unfold objectChecks at h
    obtain ⟨h, hresponse⟩ := List.forall_mem_append.1 h
    obtain ⟨h, hpolicy⟩ := List.forall_mem_append.1 h
    obtain ⟨h, -⟩ := List.forall_mem_append.1 h
    obtain ⟨h, -⟩ := List.forall_mem_append.1 h
    obtain ⟨h, -⟩ := List.forall_mem_append.1 h
    obtain ⟨h, -⟩ := List.forall_mem_append.1 h
    obtain ⟨-, hprovenance⟩ := List.forall_mem_append.1 h
    have hpol := passes_policy (passes_requireMapping hpolicy)
    have hprov := passes_provenance (passes_requireMapping hprovenance)
    have hrows := passes_responseChecks (passes_requireList hresponse)
    refine forall_mem_countsAt ?_ fun row hrow => ?_
    · rw [List.forall_mem_append, List.forall_mem_map, List.forall_mem_map, List.forall_mem_map]
      constructor
      · rintro ⟨-, hmm⟩ field hfield
        exact (isInt_iff_of_isPositiveInt (hpol field hfield)).1 (hmm field hfield)
      · intro hmm
        exact ⟨fun field hfield => isInt_of_isCount (hprov field hfield),
          fun field hfield => (isInt_iff_of_isPositiveInt (hpol field hfield)).2 (hmm field hfield)⟩
    · obtain ⟨name, hrow⟩ := hrows row hrow
      obtain ⟨hsamples, hnode, hints⟩ := passes_row hrow
      have h₁ := isInt_iff_of_isPositiveInt hsamples
      have h₂ := isInt_iff_of_isPositiveInt hnode
      rw [List.map_cons, List.cons_append, List.forall_mem_cons, List.forall_mem_append,
        List.forall_mem_map, List.forall_mem_cons (a := peek _ "samples"),
        List.forall_mem_singleton, List.forall_mem_singleton, h₁, h₂]
      exact and_congr_right fun _ => ⟨fun h => h.2, fun h => ⟨hints, h⟩⟩
  | .list xs => simp [countFields, looseCounts, countsAt]
  | .scalar s => simp [countFields, looseCounts, countsAt]

/-- **What `validate_bundle` raises and accepts.**  For every document, whatever its shape: the
validation accepts it or raises `BundleError`, and in an accepted document every count is an integer
and no boolean, exactly when

* no check that is reached meets an unhashable value, an integer beyond the floats, a key that is no
  string, content without a canonical text, or a document that is no object, and
* if all checks pass, the replica bounds, the sample counts and the node capacities, which are
  checked with `isinstance(v, int)` alone, are no booleans. -/
theorem validateBundle_errors_iff (digest : List Char → String) (depth : ℕ) (document : Value) :
    ((∀ fault, validateBundle digest depth document = .error fault →
        ∃ message, fault = .bundleError message) ∧
      (validateBundle digest depth document = .ok () →
        ∀ v ∈ countFields document, ∃ n, v = .scalar (.int n))) ↔
    ((∀ check, Reached (bundleChecks digest depth document) check → ¬ check.Foreign) ∧
      ((∀ check ∈ bundleChecks digest depth document, check.Passes) →
        ∀ v ∈ looseCounts document, v.isBool = false)) := by
  unfold validateBundle
  refine and_congr ?_ ?_
  · constructor
    · intro h check hreached hforeign
      obtain ⟨exc, hexc⟩ := (check.run_eq_other_iff).2 hforeign
      obtain ⟨message, hmessage⟩ := h _ (runChecks_eq_error.2 ⟨check, hreached, hexc⟩)
      cases hmessage
    · intro h fault hfault
      obtain ⟨check, hreached, hrun⟩ := runChecks_eq_error.1 hfault
      cases fault with
      | bundleError message => exact ⟨message, rfl⟩
      | other exc => exact absurd ((check.run_eq_other_iff).1 ⟨exc, hrun⟩) (h check hreached)
  · rw [runChecks_eq_ok]
    exact forall_congr' fun hpass => countFields_iff hpass

/-- A bundle whose container has a list for its role. -/
def listRoleBundle : Value :=
  .dict [(.str "schema_version", .str "cpu-limit-model/v1"), (.str "model_id", .str "m"),
    (.str "model_hash",
      .str "sha256:b2a85977685722bd9ec43b325fa7a728171a8a2ec0a35e5893097a904f3db74f"),
    (.str "created_at", .none),
    (.str "provenance", .dict [(.str "generator", .str "g"), (.str "campaign_id", .str "c"),
      (.str "protocol_version", .str "p"), (.str "trials_total", .int 1),
      (.str "trials_usable", .int 1)]),
    (.str "workload", .dict [(.str "profile", .str "p"),
      (.str "contract_version", .str "db-cache-mixed/v1"),
      (.str "containers", .list [.dict [(.str "name", .str "app"),
        (.str "role", .list [.str "app"])]])]),
    (.str "telemetry", .none), (.str "factors", .none), (.str "slo", .none),
    (.str "policy_defaults", .none), (.str "response", .none), (.str "exclusions", .none)]

/-- **A list in the place of a role is a `TypeError`.**  The digest is the one SHA-256 has for the
canonical text of the bundle. -/
theorem listRoleBundle_typeError :
    validateBundle (fun _ => "b2a85977685722bd9ec43b325fa7a728171a8a2ec0a35e5893097a904f3db74f") 900
      listRoleBundle = .error (.other ⟨.typeError, "unhashable type"⟩) := by
  decide +kernel

end Phase8.Bundle
