import K8Labs.Phase8.Bracket
import K8Labs.Python.Str

/-!
# Judging one cell against the SLO

`research/cpu-limits/phase8/campaign/slo.py`: `verdict` turns the observations of a cell into an
outcome and a reason.  A run the load generator itself declared invalid is `invalid`, with one
exception: when the target was reached and the generator's reason says that a large share of the
requests failed, the cell is a breach.  That share is parsed back from the text of the reason
(`failedRequestShare`, and `failedRequestShare_reason` for the text the generator writes).
-/

namespace Phase8

/-- Service-level objectives, as `__post_init__` admits them. -/
structure Slo where
  maxP99LatencyMs : Py.Float
  minThroughputRps : Py.Float
  maxErrorRatio : Py.Float
  minAvailabilityRatio : Py.Float
  latency_positive : maxP99LatencyMs.le (.fin 0) = false
  throughput_nonneg : minThroughputRps.lt (.fin 0) = false
  error_ratio_unit : (Py.Float.fin 0).le maxErrorRatio = true ∧ maxErrorRatio.le (.fin 1) = true
  availability_unit :
    (Py.Float.fin 0).le minAvailabilityRatio = true ∧ minAvailabilityRatio.le (.fin 1) = true

/-- What one cell measured; `none` is "not measured". -/
structure CellObservation where
  p50LatencyMs : Option Py.Float
  p99LatencyMs : Option Py.Float
  throughputRps : Option Py.Float
  errorRatio : Option Py.Float
  availabilityRatio : Option Py.Float
  cpuUsageMillicores : Option Py.Float
  throttledMsPerSecond : Option Py.Float
  completedRequests : ℤ
  loadgenValid : Bool
  loadgenInvalidReason : String
  targetReached : Option Bool

/-- The measurements of an observation a verdict can require. -/
inductive Field where
  | p50LatencyMs
  | p99LatencyMs
  | throughputRps
  | errorRatio
  | availabilityRatio
  | cpuUsageMillicores
  | throttledMsPerSecond
  deriving DecidableEq

namespace Field

/-- The attribute's name in the source. -/
def name : Field → String
  | p50LatencyMs => "p50_latency_ms"
  | p99LatencyMs => "p99_latency_ms"
  | throughputRps => "throughput_rps"
  | errorRatio => "error_ratio"
  | availabilityRatio => "availability_ratio"
  | cpuUsageMillicores => "cpu_usage_millicores"
  | throttledMsPerSecond => "throttled_ms_per_second"

/-- The default of `required_fields`. -/
def required : List Field :=
  [p50LatencyMs, p99LatencyMs, throughputRps, errorRatio, availabilityRatio, cpuUsageMillicores,
    throttledMsPerSecond]

end Field

namespace CellObservation

/-- `getattr(self, name)`. -/
def get (o : CellObservation) : Field → Option Py.Float
  | .p50LatencyMs => o.p50LatencyMs
  | .p99LatencyMs => o.p99LatencyMs
  | .throughputRps => o.throughputRps
  | .errorRatio => o.errorRatio
  | .availabilityRatio => o.availabilityRatio
  | .cpuUsageMillicores => o.cpuUsageMillicores
  | .throttledMsPerSecond => o.throttledMsPerSecond

/-- `missing_fields`. -/
def missingFields (o : CellObservation) (required : List Field) : List String :=
  (required.filter fun f => (o.get f).isNone).map Field.name

end CellObservation

/-! ### The failed-request share -/

/-- `^(\d+) of (\d+) requests failed`: the digits of the two groups. -/
def matchFailedRequests (cs : List Char) : Option (List Char × List Char) :=
  let errors := cs.takeWhile Py.isDigit
  if errors = [] then none
  else
    match " of ".toList.isPrefixOf? (cs.dropWhile Py.isDigit) with
    | none => none
    | some rest =>
      let completed := rest.takeWhile Py.isDigit
      if completed = [] then none
      else if " requests failed".toList.isPrefixOf (rest.dropWhile Py.isDigit) then
        some (errors, completed)
      else none

/-- `failed_request_share`. -/
def failedRequestShare (reason : String) : Except Py.Exc (Option ℚ) :=
  match matchFailedRequests reason.toList with
  | none => .ok none
  | some (errors, completed) =>
    (Py.intOfDigits errors).bind fun n =>
      (Py.intOfDigits completed).bind fun m =>
        if m = 0 then .error ⟨.zeroDivisionError, "division by zero"⟩
        else .ok (some ((n : ℚ) / m))

/-- `service_breach_share`. -/
def serviceBreachShare (o : CellObservation) : Except Py.Exc (Option ℚ) :=
  if o.loadgenValid ∨ o.targetReached ≠ some true then .ok none
  else failedRequestShare o.loadgenInvalidReason

/-- `DEFAULT_INVALID_ERROR_SHARE`. -/
def defaultInvalidErrorShare : ℚ := 1 / 2

/-! ### The verdict -/

/-- The objectives a complete observation breaches, each with its text. -/
def breaches (p99 throughput errorRatio availability : Py.Float) (slo : Slo) : List String :=
  (if slo.maxP99LatencyMs.lt p99 then
    ["p99 " ++ p99.format 1 ++ " ms > " ++ slo.maxP99LatencyMs.format 1 ++ " ms"] else []) ++
  (if throughput.lt slo.minThroughputRps then
    ["throughput " ++ throughput.format 1 ++ " rps < " ++ slo.minThroughputRps.format 1 ++ " rps"]
    else []) ++
  (if slo.maxErrorRatio.lt errorRatio then
    ["error ratio " ++ errorRatio.format 4 ++ " > " ++ slo.maxErrorRatio.format 4] else []) ++
  (if availability.lt slo.minAvailabilityRatio then
    ["availability " ++ availability.format 4 ++ " < " ++ slo.minAvailabilityRatio.format 4]
    else [])

/-- The verdict on a run the load generator declared invalid. -/
def invalidVerdict (o : CellObservation) (invalidErrorShare : ℚ) :
    Except Py.Exc (Outcome × String) :=
  let reason := if o.loadgenInvalidReason = "" then "load generator reported the run invalid"
    else o.loadgenInvalidReason
  if o.completedRequests < 1 then .ok (.invalid, "load generator invalid: " ++ reason)
  else
    (serviceBreachShare o).bind fun share =>
      match share with
      | some share =>
        if invalidErrorShare ≤ share then
          .ok (.breachesSlo, "service failed " ++ Py.formatPercent 1 share ++
            " of offered requests, at or above the " ++ Py.formatPercent 0 invalidErrorShare ++
            " breach threshold: " ++ reason)
        else .ok (.invalid, "load generator invalid: " ++ reason)
      | none => .ok (.invalid, "load generator invalid: " ++ reason)

/-- The verdict on a valid run. -/
def validVerdict (o : CellObservation) (slo : Slo) (required : List Field) :
    Except Py.Exc (Outcome × String) :=
  if o.completedRequests < 1 then
    .ok (.invalid, "no requests completed in the measured window")
  else if o.missingFields required ≠ [] then
    .ok (.invalid, "missing measurement(s): " ++ String.intercalate ", " (o.missingFields required))
  else
    match o.p99LatencyMs, o.throughputRps, o.errorRatio, o.availabilityRatio with
    | some p99, some throughput, some errorRatio, some availability =>
      match [(Field.p99LatencyMs, p99), (.throughputRps, throughput), (.errorRatio, errorRatio),
          (.availabilityRatio, availability)].find? fun f => !f.2.isFinite with
      | some (field, value) =>
        .ok (.invalid, field.name ++ " is not finite (" ++ value.nonFiniteText ++ ")")
      | none =>
        let found := breaches p99 throughput errorRatio availability slo
        if found ≠ [] then .ok (.breachesSlo, String.intercalate "; " found)
        else .ok (.meetsSlo, "all objectives met")
    | _, _, _, _ => .error ⟨.assertionError, ""⟩

/-- `verdict`. -/
def verdict (o : CellObservation) (slo : Slo) (required : List Field) (invalidErrorShare : ℚ) :
    Except Py.Exc (Outcome × String) :=
  if ¬ (0 ≤ invalidErrorShare ∧ invalidErrorShare ≤ 1) then
    Py.valueError "invalid_error_share must be within 0..=1"
  else if !o.loadgenValid then invalidVerdict o invalidErrorShare
  else validVerdict o slo required

/-- `verdict` with its default arguments. -/
def defaultVerdict (o : CellObservation) (slo : Slo) : Except Py.Exc (Outcome × String) :=
  verdict o slo Field.required defaultInvalidErrorShare

/-- A run of digits is split off before a character that is none. -/
theorem span_natDigits (n : ℕ) {c : Char} (hc : Py.isDigit c = false) (rest : List Char) :
    (Py.natDigits n ++ c :: rest).takeWhile Py.isDigit = Py.natDigits n ∧
      (Py.natDigits n ++ c :: rest).dropWhile Py.isDigit = c :: rest := by
  rw [List.takeWhile_append_of_pos Py.isDigit_natDigits,
    List.dropWhile_append_of_pos Py.isDigit_natDigits]
  simp [hc]

theorem matchFailedRequests_reason (errors completed : ℕ) (rest : List Char) :
    matchFailedRequests (Py.natDigits errors ++ (" of ".toList ++ (Py.natDigits completed ++
      (" requests failed".toList ++ rest)))) =
      some (Py.natDigits errors, Py.natDigits completed) := by
  have hspace : Py.isDigit ' ' = false := by decide
  have h₁ := span_natDigits errors hspace ("of ".toList ++ (Py.natDigits completed ++
      (" requests failed".toList ++ rest)))
  have h₂ := span_natDigits completed hspace ("requests failed".toList ++ rest)
  have hof : " of ".toList ++ (Py.natDigits completed ++ (" requests failed".toList ++ rest)) =
      ' ' :: ("of ".toList ++ (Py.natDigits completed ++ (" requests failed".toList ++ rest))) := rfl
  have hfailed : " requests failed".toList ++ rest = ' ' :: ("requests failed".toList ++ rest) := rfl
  unfold matchFailedRequests
  rw [hof, h₁.1, h₁.2, ← hof, Py.isPrefixOf?_append]
  simp only [Py.natDigits_ne_nil, if_false]
  rw [hfailed, h₂.1, h₂.2, ← hfailed]
  simp only [Py.natDigits_ne_nil, if_false]
  rw [if_pos]
  exact List.isPrefixOf_iff_prefix.2 (List.prefix_append _ _)

/-- **The share is recovered from the text**: for 64-bit counts, reading "N of M requests failed"
gives `N / M`. -/
theorem failedRequestShare_reason {errors completed : ℕ} (hc : 0 < completed)
    (hne : errors < 2 ^ 64) (hnc : completed < 2 ^ 64) (rest : String) :
    failedRequestShare (toString errors ++ " of " ++ toString completed ++ " requests failed" ++
      rest) = .ok (some ((errors : ℚ) / completed)) := by
  have htext : (toString errors ++ " of " ++ toString completed ++ " requests failed" ++
      rest).toList = Py.natDigits errors ++ (" of ".toList ++ (Py.natDigits completed ++
        (" requests failed".toList ++ rest.toList))) := by
    simp only [String.toList_append, Py.toList_toString, List.append_assoc]
  rw [failedRequestShare, htext, matchFailedRequests_reason]
  simp only [Py.intOfDigits_natDigits hne, Py.intOfDigits_natDigits hnc, Except.bind, hc.ne',
    if_false]

end Phase8
