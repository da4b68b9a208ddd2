import K8Labs.BpfTracer.Events
import K8Labs.Transition
import Mathlib.Data.List.Perm.Basic
import Mathlib.Logic.Function.Basic

/-!
# The reference service

`config.rs`, `deps.rs` and `http.rs` of the service of phase 8: replicas that share one PostgreSQL
table and one Redis, and answer any number of requests at the same time.  Every access to a
dependency or a counter is a step of its own, and the steps of all requests come in any order.  A
call may fail without having done its work or with its work still to come, a client may give up, and
Redis may drop any key.

* `happens_of_step` : what an event does, one case for each kind of step.
* `counters_exact` : **what the counters of a replica say** after every run.

The CPU work and the telemetry are left out; they change nothing that a request reads.
-/

namespace Phase8

namespace Service

/-! ### The mixes -/

/-- `Mix`. -/
inductive Mix where
  | readHeavy
  | writeHeavy
  | balanced
  | cpuHeavy
  deriving DecidableEq

namespace Mix

/-- `Mix::parse`. -/
def parse : String → Option Mix
  | "read-heavy" => some readHeavy
  | "write-heavy" => some writeHeavy
  | "balanced" => some balanced
  | "cpu-heavy" => some cpuHeavy
  | _ => none

/-- `Mix::as_str`. -/
def asStr : Mix → String
  | readHeavy => "read-heavy"
  | writeHeavy => "write-heavy"
  | balanced => "balanced"
  | cpuHeavy => "cpu-heavy"

/-- `Mix::weights`: reads and writes. -/
def weights : Mix → ℕ × ℕ
  | readHeavy => (9, 1)
  | writeHeavy => (2, 8)
  | balanced => (5, 5)
  | cpuHeavy => (3, 7)

/-- `is_write` of `execute_work`. -/
def isWrite (m : Mix) (id : ℤ) : Bool :=
  decide (m.weights.1 ≤ id.natAbs % (m.weights.1 + m.weights.2))

end Mix

/-! ### The headers -/

/-- The bytes of a header. -/
abbrev HeaderValue := List UInt8

/-- A byte that `to_str` accepts. -/
def isVisible (b : UInt8) : Bool := b == 9 || (32 ≤ b && b < 127)

/-- `HeaderValue::to_str`. -/
def toStr (value : HeaderValue) : Option (List Char) :=
  if value.all isVisible then some (value.map fun b => Char.ofNat b.toNat) else none

/-- One character of `{:?}`. -/
def debugChar (c : Char) : List Char :=
  if c = '"' then ['\\', '"'] else if c = '\\' then ['\\', '\\'] else if c = '\t' then ['\\', 't']
  else [c]

/-- `{raw:?}`, of a text that `to_str` returns. -/
def debugText (raw : List Char) : String := "\"" ++ String.ofList (raw.flatMap debugChar) ++ "\""

/-- `resolve_mix`. -/
def resolveMix (header : Option HeaderValue) (default : Mix) : Except String Mix :=
  match header with
  | none => .ok default
  | some value =>
    match toStr value with
    | none => .error "X-Workload-Mix is not valid ASCII"
    | some raw =>
      match Mix.parse (String.ofList raw) with
      | none => .error ("X-Workload-Mix is not a known mix: " ++ debugText raw)
      | some mix => .ok mix

/-- `n as i64`. -/
def toI64 (n : ℕ) : ℤ := (BitVec.ofNat 64 n).toInt

/-- The `id` of `work`: the number in `X-Request-Id`, or else of the requests served so far. -/
def requestId (header : Option HeaderValue) (served : ℕ) : ℤ :=
  (toI64 (((header.bind toStr).bind BpfTracer.parseU64).getD served)).tmod 1024

/-- `key` of `execute_work`. -/
def cacheKey (id : ℤ) : String := "item:" ++ toString id

/-- `payload` of `execute_work`. -/
def payload (id : ℤ) (served : ℕ) : String := "payload-" ++ toString id ++ "-" ++ toString served

/-! ### The state -/

/-- Where `work` is: before a call, or before one of its last steps. -/
inductive Phase where
  /-- The mix and the id are known. -/
  | resolved
  /-- Before `upsert_item`. -/
  | upsert (payload : String)
  /-- Before `cache_get`. -/
  | lookup
  /-- Before `select_item`. -/
  | select
  /-- Before `cache_set`. -/
  | store (value : String)
  /-- `execute_work` has returned. -/
  | worked (ok : Bool)
  /-- `bump_served` is done. -/
  | counted (ok : Bool)
  /-- `bump_errors` is done, where it is called. -/
  | reported (ok : Bool)
  deriving DecidableEq

/-- A request that is being answered. -/
structure Request (ρ : Type) where
  replica : ρ
  mix : Mix
  id : ℤ
  phase : Phase

/-- The dependencies, the counters of each replica, the requests in flight, and the status of each
answer so far. -/
structure State (ρ : Type) where
  items : ℤ → Option String
  cache : String → Option String
  /-- Requests whose call is still to be carried out though nobody waits for it any more. -/
  strays : List (Request ρ)
  /-- The calls of `bump_served`; the counter itself has 64 bits. -/
  served : ρ → ℕ
  /-- The calls of `bump_errors`. -/
  errors : ρ → ℕ
  requests : List (Request ρ)
  answers : List (ρ × ℕ)

/-- `Counters::served` and `Counters::errors`. -/
def load (calls : ℕ) : ℕ := calls % 2 ^ 64

/-- How a call of a dependency ends. -/
inductive Outcome where
  | done
  /-- It fails, and its work is not done. -/
  | failed
  /-- It fails, but the dependency does the work: now or later. -/
  | lost
  deriving DecidableEq

/-- What can happen next. -/
inductive Event (ρ : Type) where
  /-- A request comes in, with its two headers. -/
  | arrive (replica : ρ) (mix id : Option HeaderValue)
  /-- A request goes on with its next step; the outcome is that of its call. -/
  | proceed (i : ℕ) (outcome : Outcome)
  /-- The client of a request is gone; the call it was in may do its work or not. -/
  | abandon (i : ℕ) (outcome : Outcome)
  /-- A call that nobody waits for is carried out. -/
  | land (i : ℕ)
  /-- Redis drops a key. -/
  | expire (key : String)

section Step

variable {ρ : Type} [DecidableEq ρ]

/-- `SELECT payload FROM items`, `missing` where there is no row. -/
def State.row (s : State ρ) (id : ℤ) : String := (s.items id).getD "missing"

/-- A request in this phase waits for a dependency. -/
def Phase.isCall : Phase → Bool
  | .upsert _ | .lookup | .select | .store _ => true
  | _ => false

/-- The phase of a request that begins with `execute_work`. -/
def firstCall (s : State ρ) (q : Request ρ) : Phase :=
  if q.mix.isWrite q.id then .upsert (payload q.id (load (s.served q.replica))) else .lookup

/-- The work of the call that a request waits for. -/
def effect (s : State ρ) (q : Request ρ) : State ρ :=
  match q.phase with
  | .upsert payload => { s with items := Function.update s.items q.id (some payload) }
  | .store value => { s with cache := Function.update s.cache (cacheKey q.id) (some value) }
  | _ => s

/-- The phase of a request whose call has returned. -/
def afterCall (s : State ρ) (q : Request ρ) : Phase :=
  match q.phase with
  | .upsert payload => .store payload
  | .lookup => if (s.cache (cacheKey q.id)).isSome then .worked true else .select
  | .select => .store (s.row q.id)
  | _ => .worked true

/-- The call of a request, however it ends. -/
def State.attempt (s : State ρ) (q : Request ρ) : Outcome → State ρ
  | .done => effect s q
  | .failed => s
  | .lost => { s with strays := s.strays ++ [q] }

/-- The request at a position goes on to a phase. -/
def State.goOn (s : State ρ) (i : ℕ) (q : Request ρ) (phase : Phase) : State ρ :=
  { s with requests := s.requests.set i { q with phase := phase } }

/-- The step of the request at a position. -/
def proceed (s : State ρ) (i : ℕ) (q : Request ρ) (outcome : Outcome) : State ρ :=
  match q.phase with
  | .resolved => s.goOn i q (firstCall s q)
  | .worked ok =>
    State.goOn { s with served := Function.update s.served q.replica (s.served q.replica + 1) } i q
      (.counted ok)
  | .counted true => s.goOn i q (.reported true)
  | .counted false =>
    State.goOn { s with errors := Function.update s.errors q.replica (s.errors q.replica + 1) } i q
      (.reported false)
  | .reported ok =>
    { s with
      requests := s.requests.eraseIdx i
      answers := s.answers ++ [(q.replica, if ok then 200 else 500)] }
  | _ => (s.attempt q outcome).goOn i q (if outcome = .done then afterCall s q else .worked false)

/-- A request is dropped while it waits for a call. -/
def abandon (s : State ρ) (i : ℕ) (q : Request ρ) (outcome : Outcome) : Option (State ρ) :=
  if q.phase.isCall then
    some { s.attempt q outcome with requests := s.requests.eraseIdx i }
  else none

variable (default : ρ → Mix)

/-- The state after an event, if it can happen. -/
def step (s : State ρ) : Event ρ → Option (State ρ)
  | .arrive replica mix id =>
    match resolveMix mix (default replica) with
    | .error _ => some { s with answers := s.answers ++ [(replica, 400)] }
    | .ok mix =>
      some { s with requests := s.requests ++
        [⟨replica, mix, requestId id (load (s.served replica)), .resolved⟩] }
  | .proceed i outcome => (s.requests[i]?).map fun q => proceed s i q outcome
  | .abandon i outcome => (s.requests[i]?).bind fun q => abandon s i q outcome
  | .land i => (s.strays[i]?).map fun q => effect { s with strays := s.strays.eraseIdx i } q
  | .expire key => some { s with cache := Function.update s.cache key none }

end Step

/-! ### What can happen -/

section Happens

variable {ρ : Type} {default : ρ → Mix} {s s' : State ρ} {e : Event ρ} {q : Request ρ} {i : ℕ}

@[simp] theorem effect_requests : (effect s q).requests = s.requests := by
  unfold effect
  split <;> rfl

@[simp] theorem effect_served : (effect s q).served = s.served := by
  unfold effect
  split <;> rfl

@[simp] theorem effect_errors : (effect s q).errors = s.errors := by
  unfold effect
  split <;> rfl

@[simp] theorem effect_answers : (effect s q).answers = s.answers := by
  unfold effect
  split <;> rfl

@[simp] theorem attempt_requests (o : Outcome) : (s.attempt q o).requests = s.requests := by
  cases o <;> simp [State.attempt]

@[simp] theorem attempt_served (o : Outcome) : (s.attempt q o).served = s.served := by
  cases o <;> simp [State.attempt]

@[simp] theorem attempt_errors (o : Outcome) : (s.attempt q o).errors = s.errors := by
  cases o <;> simp [State.attempt]

@[simp] theorem attempt_answers (o : Outcome) : (s.attempt q o).answers = s.answers := by
  cases o <;> simp [State.attempt]

/-- The requests are the one at a position and the others. -/
theorem requests_perm (hq : s.requests[i]? = some q) :
    s.requests.Perm (q :: s.requests.eraseIdx i) := by
  obtain ⟨hi, rfl⟩ := List.getElem?_eq_some_iff.1 hq
  exact (List.getElem_cons_eraseIdx_perm hi).symm

/-- A request that goes on takes its own place among the others. -/
theorem set_perm (hq : s.requests[i]? = some q) (phase : Phase) :
    (s.requests.set i { q with phase := phase }).Perm
      ({ q with phase := phase } :: s.requests.eraseIdx i) :=
  List.set_perm_cons_eraseIdx (List.getElem?_eq_some_iff.1 hq).1 _

variable [DecidableEq ρ]

/-- What an event does, one case for each kind of step. -/
inductive Happens (default : ρ → Mix) (s : State ρ) : Event ρ → State ρ → Prop
  | refused {replica : ρ} {mix id : Option HeaderValue} {message : String}
      (hmix : resolveMix mix (default replica) = .error message) :
      Happens default s (.arrive replica mix id) { s with answers := s.answers ++ [(replica, 400)] }
  | arrived {replica : ρ} {mix id : Option HeaderValue} {m : Mix}
      (hmix : resolveMix mix (default replica) = .ok m) :
      Happens default s (.arrive replica mix id)
        { s with requests := s.requests ++
          [⟨replica, m, requestId id (load (s.served replica)), .resolved⟩] }
  | expired (key : String) :
      Happens default s (.expire key) { s with cache := Function.update s.cache key none }
  | began {i : ℕ} {o : Outcome} {q : Request ρ} (hq : s.requests[i]? = some q)
      (hphase : q.phase = .resolved) :
      Happens default s (.proceed i o) (s.goOn i q (firstCall s q))
  | called {i : ℕ} {o : Outcome} {q : Request ρ} (hq : s.requests[i]? = some q)
      (hphase : q.phase.isCall = true) :
      Happens default s (.proceed i o)
        ((s.attempt q o).goOn i q (if o = .done then afterCall s q else .worked false))
  | counted {i : ℕ} {o : Outcome} {q : Request ρ} {ok : Bool} (hq : s.requests[i]? = some q)
      (hphase : q.phase = .worked ok) :
      Happens default s (.proceed i o)
        (State.goOn { s with served := Function.update s.served q.replica (s.served q.replica + 1) }
          i q (.counted ok))
  | noted {i : ℕ} {o : Outcome} {q : Request ρ} (hq : s.requests[i]? = some q)
      (hphase : q.phase = .counted true) :
      Happens default s (.proceed i o) (s.goOn i q (.reported true))
  | blamed {i : ℕ} {o : Outcome} {q : Request ρ} (hq : s.requests[i]? = some q)
      (hphase : q.phase = .counted false) :
      Happens default s (.proceed i o)
        (State.goOn { s with errors := Function.update s.errors q.replica (s.errors q.replica + 1) }
          i q (.reported false))
  | answered {i : ℕ} {o : Outcome} {q : Request ρ} {ok : Bool} (hq : s.requests[i]? = some q)
      (hphase : q.phase = .reported ok) :
      Happens default s (.proceed i o)
        { s with
          requests := s.requests.eraseIdx i
          answers := s.answers ++ [(q.replica, if ok then 200 else 500)] }
  | abandoned {i : ℕ} {o : Outcome} {q : Request ρ} (hq : s.requests[i]? = some q)
      (hphase : q.phase.isCall = true) :
      Happens default s (.abandon i o)
        { s.attempt q o with requests := s.requests.eraseIdx i }
  | landed {i : ℕ} {q : Request ρ} (hq : s.strays[i]? = some q) :
      Happens default s (.land i) (effect { s with strays := s.strays.eraseIdx i } q)

theorem happens_of_step (h : step default s e = some s') : Happens default s e s' := by
  cases e with
  | arrive replica mix id =>
    cases hmix : resolveMix mix (default replica) with
    | error message =>
      simp only [step, hmix] at h
      cases h
      exact .refused hmix
    | ok m =>
      simp only [step, hmix] at h
      cases h
      exact .arrived hmix
  | proceed i o =>
    obtain ⟨q, hq, rfl⟩ := Option.map_eq_some_iff.1 h
    unfold proceed
    split
    · exact .began hq ‹_›
    · exact .counted hq ‹_›
    · exact .noted hq ‹_›
    · exact .blamed hq ‹_›
    · exact .answered hq ‹_›
    · refine .called hq ?_
      cases hphase : q.phase <;> simp_all [Phase.isCall]
  | abandon i o =>
    obtain ⟨q, hq, h⟩ := Option.bind_eq_some_iff.1 h
    unfold abandon at h
    split_ifs at h with hphase
    cases h
    exact .abandoned hq hphase
  | land i =>
    obtain ⟨q, hq, rfl⟩ := Option.map_eq_some_iff.1 h
    exact .landed hq
  | expire key =>
    cases h
    exact .expired key

end Happens

/-! ### The counters -/

section Counters

variable {ρ : Type} [DecidableEq ρ] {default : ρ → Mix} {s s' : State ρ} {e : Event ρ}

/-- `bump_served` is done. -/
def Phase.isCounted : Phase → Bool
  | .counted _ | .reported _ => true
  | _ => false

@[simp] theorem isCounted_resolved : Phase.isCounted .resolved = false := rfl

@[simp] theorem isCounted_worked (ok : Bool) : Phase.isCounted (.worked ok) = false := rfl

@[simp] theorem isCounted_counted (ok : Bool) : Phase.isCounted (.counted ok) = true := rfl

@[simp] theorem isCounted_reported (ok : Bool) : Phase.isCounted (.reported ok) = true := rfl

/-- The counters of a replica say how many measured requests it has answered, and how many of them
with an error, up to those that have been counted but not answered yet. -/
structure Accounts (r : ρ) (s : State ρ) : Prop where
  served : s.served r = s.answers.countP (fun a => a.1 = r ∧ a.2 ≠ 400) +
    s.requests.countP fun q => q.replica = r ∧ q.phase.isCounted = true
  errors : s.errors r = s.answers.countP (fun a => a.1 = r ∧ a.2 = 500) +
    s.requests.countP fun q => q.replica = r ∧ q.phase = .reported false
  /-- Only requests that were refused have the status 400. -/
  statuses : ∀ a ∈ s.answers, a.2 = 400 ∨ a.2 = 200 ∨ a.2 = 500

omit [DecidableEq ρ] in
/-- The number of requests with a property, before and after one of them goes on. -/
theorem countP_set (p : Request ρ → Bool) {i : ℕ} {q : Request ρ} (hq : s.requests[i]? = some q)
    (phase : Phase) :
    (s.requests.set i { q with phase := phase }).countP p + (if p q then 1 else 0) =
      s.requests.countP p + if p { q with phase := phase } then 1 else 0 := by
  rw [(set_perm hq phase).countP_eq, (requests_perm hq).countP_eq, List.countP_cons, List.countP_cons]
  omega

/-- A request that goes on changes the counters by what it is counted for. -/
theorem Accounts.goOn {r : ρ} {t : State ρ} {i : ℕ} {q : Request ρ} {phase : Phase}
    (hs : Accounts r s) (hq : s.requests[i]? = some q) (hrequests : t.requests = s.requests)
    (hanswers : t.answers = s.answers)
    (hserved : t.served r + (if q.replica = r ∧ q.phase.isCounted = true then 1 else 0) =
      s.served r + if q.replica = r ∧ phase.isCounted = true then 1 else 0)
    (herrors : t.errors r + (if q.replica = r ∧ q.phase = .reported false then 1 else 0) =
      s.errors r + if q.replica = r ∧ phase = .reported false then 1 else 0) :
    Accounts r (t.goOn i q phase) := by
  have hcounted := countP_set (fun q => q.replica = r ∧ q.phase.isCounted = true) hq phase
  have hreported := countP_set (fun q => q.replica = r ∧ q.phase = .reported false) hq phase
  simp only [decide_eq_true_eq] at hcounted hreported
  have hsum := hs.served
  have hsum' := hs.errors
  refine ⟨?_, ?_, by simpa [State.goOn, hanswers] using hs.statuses⟩
  · simp only [State.goOn, hanswers, hrequests]
    omega
  · simp only [State.goOn, hanswers, hrequests]
    omega

theorem isCounted_of_isCall {phase : Phase} (h : phase.isCall = true) :
    phase.isCounted = false ∧ phase ≠ .reported false := by
  cases phase <;> simp_all [Phase.isCall, Phase.isCounted]

omit [DecidableEq ρ] in
theorem isCounted_firstCall (s : State ρ) (q : Request ρ) :
    (firstCall s q).isCounted = false ∧ firstCall s q ≠ .reported false := by
  unfold firstCall
  split_ifs
  · exact ⟨rfl, nofun⟩
  · exact ⟨rfl, nofun⟩

omit [DecidableEq ρ] in
theorem isCounted_afterCall (s : State ρ) (q : Request ρ) :
    (afterCall s q).isCounted = false ∧ afterCall s q ≠ .reported false := by
  unfold afterCall
  split
  · exact ⟨rfl, nofun⟩
  · split_ifs
    · exact ⟨rfl, nofun⟩
    · exact ⟨rfl, nofun⟩
  · exact ⟨rfl, nofun⟩
  · exact ⟨rfl, nofun⟩

theorem accounts_step {r : ρ} (h : step default s e = some s') (hs : Accounts r s) :
    Accounts r s' := by
  cases happens_of_step h with
  | refused hmix =>
    refine ⟨?_, ?_, ?_⟩
    · simp [hs.served]
    · simp [hs.errors]
    · simpa [or_imp, forall_and] using hs.statuses
  | arrived hmix =>
    refine ⟨?_, ?_, hs.statuses⟩
    · simp [hs.served]
    · simp [hs.errors]
  | expired key => exact ⟨hs.served, hs.errors, hs.statuses⟩
  | @began i o q hq hphase =>
    obtain ⟨hcounted, hreported⟩ := isCounted_firstCall s q
    exact hs.goOn hq rfl rfl (by simp [hphase, hcounted]) (by simp [hphase, hreported])
  | @called i o q hq hphase =>
    obtain ⟨hcounted, hreported⟩ := isCounted_of_isCall hphase
    have hnext : (if o = .done then afterCall s q else .worked false).isCounted = false ∧
        (if o = .done then afterCall s q else .worked false) ≠ .reported false := by
      split_ifs
      · exact isCounted_afterCall s q
      · exact ⟨rfl, nofun⟩
    exact hs.goOn hq (attempt_requests o) (attempt_answers o) (by simp [hcounted, hnext.1])
      (by simp [hreported, hnext.2])
  | @counted i o q ok hq hphase =>
    refine hs.goOn hq rfl rfl ?_ (by simp [hphase])
    by_cases hr : q.replica = r
    · simp [hr, hphase]
    · simp [hr, Function.update_of_ne (Ne.symm hr)]
  | @noted i o q hq hphase =>
    exact hs.goOn hq rfl rfl (by simp [hphase]) (by simp [hphase])
  | @blamed i o q hq hphase =>
    refine hs.goOn hq rfl rfl (by simp [hphase]) ?_
    by_cases hr : q.replica = r
    · simp [hr, hphase]
    · simp [hr, Function.update_of_ne (Ne.symm hr)]
  | @answered i o q ok hq hphase =>
    have hserved := hs.served
    have herrors := hs.errors
    rw [(requests_perm hq).countP_eq, List.countP_cons] at hserved herrors
    simp only [hphase, isCounted_reported, and_true, decide_eq_true_eq] at hserved herrors
    refine ⟨?_, ?_, ?_⟩
    · have hnew : (q.replica = r ∧ (if ok then 200 else 500) ≠ 400) ↔ q.replica = r := by
        cases ok <;> simp
      simp only [List.countP_append, List.countP_singleton, decide_eq_true_eq, hnew]
      omega
    · have hnew : (q.replica = r ∧ (if ok then 200 else 500) = 500) ↔
          q.replica = r ∧ Phase.reported ok = .reported false := by
        cases ok <;> simp
      simp only [List.countP_append, List.countP_singleton, decide_eq_true_eq, hnew]
      omega
    · intro a ha
      rcases List.mem_append.1 ha with ha | ha
      · exact hs.statuses a ha
      · rw [List.mem_singleton.1 ha]
        cases ok <;> simp
  | @abandoned i o q hq hphase =>
    obtain ⟨hcounted, hreported⟩ := isCounted_of_isCall hphase
    have hserved := hs.served
    have herrors := hs.errors
    rw [(requests_perm hq).countP_eq, List.countP_cons] at hserved herrors
    refine ⟨?_, ?_, by simpa using hs.statuses⟩
    · simpa [hcounted] using hserved
    · simpa [hreported] using herrors
  | landed hq =>
    refine ⟨?_, ?_, ?_⟩
    · simpa using hs.served
    · simpa using hs.errors
    · simpa using hs.statuses

/-- No request has come in yet. -/
structure Unused (s : State ρ) : Prop where
  served : ∀ r, s.served r = 0
  errors : ∀ r, s.errors r = 0
  requests : s.requests = []
  answers : s.answers = []

theorem Accounts.errors_le {r : ρ} (h : Accounts r s) : s.errors r ≤ s.served r := by
  rw [h.served, h.errors]
  refine Nat.add_le_add (List.countP_mono_left fun a _ ha => ?_) (List.countP_mono_left fun q _ hq => ?_)
  · simp only [decide_eq_true_eq] at ha ⊢
    exact ⟨ha.1, by rw [ha.2]; decide⟩
  · simp only [decide_eq_true_eq] at hq ⊢
    exact ⟨hq.1, by rw [hq.2]; rfl⟩

/-- **The counters are exact.**  After every run, in whatever order the steps of the requests came
and whatever failed, a replica has counted no more errors than answers; and when none of its requests
is in flight, it has counted each of its answers but the refusals, and each of its answers with an
error, once. -/
theorem counters_exact {es : List (Event ρ)} (hunused : Unused s)
    (h : Transition.run (step default) s es = some s') (r : ρ) :
    s'.errors r ≤ s'.served r ∧
      ((∀ q ∈ s'.requests, q.replica ≠ r) →
        s'.served r = s'.answers.countP (fun a => a.1 = r ∧ a.2 ≠ 400) ∧
        s'.errors r = s'.answers.countP fun a => a.1 = r ∧ a.2 = 500) := by
  have hinit : Accounts r s :=
    ⟨by simp [hunused.served, hunused.answers, hunused.requests],
      by simp [hunused.errors, hunused.answers, hunused.requests], by simp [hunused.answers]⟩
  have hend : Accounts r s' := Transition.run_preserves_all (fun _ _ _ => accounts_step) h hinit
  refine ⟨hend.errors_le, fun hidle => ?_⟩
  have hnone : ∀ p : Request ρ → Bool, (∀ q, p q = true → q.replica = r) →
      s'.requests.countP p = 0 := fun p hp =>
    List.countP_eq_zero.2 fun q hq h => hidle q hq (hp q h)
  constructor
  · rw [hend.served, hnone _ fun q hq => (of_decide_eq_true hq).1, Nat.add_zero]
  · rw [hend.errors, hnone _ fun q hq => (of_decide_eq_true hq).1, Nat.add_zero]

/-- A service that has just come up. -/
def State.fresh (ρ : Type) : State ρ :=
  ⟨fun _ => none, fun _ => none, [], fun _ => 0, fun _ => 0, [], []⟩

/-- The events of one request, with its headers and the outcomes of its steps. -/
def alone (mix id : Option HeaderValue) (outcomes : List Outcome) : List (Event Unit) :=
  .arrive () mix id :: outcomes.map (.proceed 0)

/-- The answer to its lookup is lost. -/
theorem counters_exact_lost : ∃ s', Transition.run (step fun _ => .balanced) (State.fresh Unit)
      (alone none none [.done, .lost, .done, .done, .done]) = some s' ∧
    s'.errors () ≤ s'.served () ∧
      ((∀ q ∈ s'.requests, q.replica ≠ ()) →
        s'.served () = s'.answers.countP (fun a => a.1 = () ∧ a.2 ≠ 400) ∧
        s'.errors () = s'.answers.countP fun a => a.1 = () ∧ a.2 = 500) := by
  have hrun : Transition.run (step fun _ => .balanced) (State.fresh Unit)
      (alone none none [.done, .lost, .done, .done, .done]) = some _ := rfl
  exact ⟨_, hrun, counters_exact ⟨fun _ => rfl, fun _ => rfl, rfl, rfl⟩ hrun ()⟩

end Counters

end Service

end Phase8
