import K8Labs.Python.OrderStatistics
import K8Labs.SchedCoreDelta.PeriodicBurn
import K8Labs.Transition

/-!
# The round trips of `pingpong`

`pingpong.c` sends a token to a responder thread through one pipe and back through another, until a
time is over, and reports the round trips.  The two threads run in any order, and any of their calls
may fail.  A byte that is written to a pipe nobody can read any more kills the process.

* `token_safe` : without a failing call, **the token is in one place and nothing breaks**.
* `always_ends` : whatever fails, **no thread waits for ever** when the time is over.
* `samples_account` : the samples are those of the round trips, and **fit into the time that passed**.
-/

namespace SchedCoreDelta

namespace Pingpong

/-! ### The program -/

/-- A pipe: the bytes in it, each of them the token, and which of its ends are open. -/
@[ext] structure Pipe where
  bytes : ℕ
  reader : Bool
  writer : Bool
  deriving DecidableEq

/-- Where `main` is behind the start of the responder: before a call or a reading of the clock. -/
inductive MainPhase where
  /-- Before `now_us() < end`. -/
  | check
  /-- Before `before = now_us()`. -/
  | before
  | write (before : ℤ)
  | read (before : ℤ)
  /-- Before `after = now_us()`; whether the token has come back. -/
  | after (before : ℤ) (back : Bool)
  | closeAb
  | closeBa
  | join
  | done
  deriving DecidableEq

/-- Where `responder` is. -/
inductive ResponderPhase where
  | read
  | write
  | closeRead
  | closeWrite
  | done
  deriving DecidableEq

/-- The process. -/
structure State where
  /-- The clock, in microseconds. -/
  now : ℤ
  /-- `end`. -/
  stop : ℤ
  ab : Pipe
  ba : Pipe
  main : MainPhase
  responder : ResponderPhase
  samples : List ℕ
  /-- The tokens that `main` has read back so far, of which the program keeps no count. -/
  returned : ℕ
  /-- `shared.failed`. -/
  failed : Bool
  /-- A `SIGPIPE` has come. -/
  killed : Bool

/-- `MAX_SAMPLES`. -/
def maxSamples : ℕ := 1000000

/-- The process when the loop begins: `start` is the time, `span` the duration in microseconds. -/
def init (start span : ℤ) : State :=
  { now := start
    stop := start + span
    ab := ⟨0, true, true⟩
    ba := ⟨0, true, true⟩
    main := .check
    responder := .read
    samples := []
    returned := 0
    failed := false
    killed := false }

/-- The next step of `main`, unless it waits; `fails` says that its call fails. -/
def mainStep (capacity : ℕ) (s : State) (fails : Bool) : Option State :=
  match s.main with
  | .check => some { s with main := if s.now < s.stop then .before else .closeAb }
  | .before => some { s with main := .write s.now }
  | .write before =>
    if fails then some { s with main := .closeAb }
    else if s.ab.reader = false then some { s with killed := true }
    else if s.ab.bytes < capacity then
      some { s with ab := { s.ab with bytes := s.ab.bytes + 1 }, main := .read before }
    else none
  | .read before =>
    if fails then some { s with main := .after before false }
    else if 0 < s.ba.bytes then
      some
        { s with
          ba := { s.ba with bytes := s.ba.bytes - 1 }
          main := .after before true
          returned := s.returned + 1 }
    else if s.ba.writer then none
    else some { s with main := .after before false }
  | .after before true =>
    some
      { s with
        main := .check
        samples := if s.samples.length < maxSamples then s.samples ++ [(s.now - before).toNat]
          else s.samples }
  | .after _ false => some { s with main := .closeAb }
  | .closeAb => some { s with ab := { s.ab with writer := false }, main := .closeBa }
  | .closeBa => some { s with ba := { s.ba with reader := false }, main := .join }
  | .join => if s.responder = .done then some { s with main := .done } else none
  | .done => none

/-- The next step of `responder`. -/
def responderStep (capacity : ℕ) (s : State) (fails : Bool) : Option State :=
  match s.responder with
  | .read =>
    if fails then some { s with responder := .closeRead }
    else if 0 < s.ab.bytes then
      some { s with ab := { s.ab with bytes := s.ab.bytes - 1 }, responder := .write }
    else if s.ab.writer then none
    else some { s with responder := .closeRead }
  | .write =>
    if fails then some { s with responder := .closeRead, failed := true }
    else if s.ba.reader = false then some { s with killed := true }
    else if s.ba.bytes < capacity then
      some { s with ba := { s.ba with bytes := s.ba.bytes + 1 }, responder := .read }
    else none
  | .closeRead => some { s with ab := { s.ab with reader := false }, responder := .closeWrite }
  | .closeWrite => some { s with ba := { s.ba with writer := false }, responder := .done }
  | .done => none

/-- What can happen next. -/
inductive Event where
  /-- Time passes. -/
  | tick (us : ℕ)
  | main (fails : Bool)
  | responder (fails : Bool)
  deriving DecidableEq

/-- A thread takes a step. -/
def Event.isThread : Event → Bool
  | .tick _ => false
  | _ => true

/-- A call fails. -/
def Event.fails : Event → Bool
  | .tick _ => false
  | .main fails | .responder fails => fails

/-- What `main` writes behind the join, but for the rate and its arguments. -/
structure Output where
  roundTrips : ℕ
  elapsedUs : ℤ
  p50Us : ℕ
  p99Us : ℕ
  p999Us : ℕ
  maxUs : ℕ
  failed : Bool

/-- The report, when `start` is the time before the loop. -/
def report (start : ℤ) (s : State) : Output :=
  let samples := s.samples.insertionSort (· ≤ ·)
  { roundTrips := samples.length
    elapsedUs := s.now - start
    p50Us := PeriodicBurn.percentile samples 500
    p99Us := PeriodicBurn.percentile samples 990
    p999Us := PeriodicBurn.percentile samples 999
    maxUs := samples.getLastD 0
    failed := s.failed }

/-- The process after an event, if it can happen. -/
def step (capacity : ℕ) (s : State) : Event → Option State
  | .tick us => some { s with now := s.now + us }
  | .main fails => if s.killed then none else mainStep capacity s fails
  | .responder fails => if s.killed then none else responderStep capacity s fails

/-! ### What a step does -/

section Steps

variable {capacity : ℕ} {s s' : State} {e : Event} {fails : Bool}

/-- What a step of `main` does. -/
inductive MainStep (capacity : ℕ) (s : State) (fails : Bool) : State → Prop
  | entered (hmain : s.main = .check) (htime : s.now < s.stop) :
      MainStep capacity s fails { s with main := .before }
  | left (hmain : s.main = .check) (htime : s.stop ≤ s.now) :
      MainStep capacity s fails { s with main := .closeAb }
  | timed (hmain : s.main = .before) : MainStep capacity s fails { s with main := .write s.now }
  | unsent {before : ℤ} (hmain : s.main = .write before) (hfails : fails = true) :
      MainStep capacity s fails { s with main := .closeAb }
  | broke {before : ℤ} (hmain : s.main = .write before) (hreader : s.ab.reader = false) :
      MainStep capacity s fails { s with killed := true }
  | sent {before : ℤ} (hmain : s.main = .write before) (hreader : s.ab.reader = true) :
      MainStep capacity s fails
        { s with ab := { s.ab with bytes := s.ab.bytes + 1 }, main := .read before }
  | received {before : ℤ} (hmain : s.main = .read before) (hbytes : 0 < s.ba.bytes) :
      MainStep capacity s fails
        { s with
          ba := { s.ba with bytes := s.ba.bytes - 1 }
          main := .after before true
          returned := s.returned + 1 }
  | missed {before : ℤ} (hmain : s.main = .read before)
      (hwhy : fails = true ∨ s.ba.bytes = 0 ∧ s.ba.writer = false) :
      MainStep capacity s fails { s with main := .after before false }
  | sampled {before : ℤ} (hmain : s.main = .after before true) :
      MainStep capacity s fails
        { s with
          main := .check
          samples := if s.samples.length < maxSamples then s.samples ++ [(s.now - before).toNat]
            else s.samples }
  | stopped {before : ℤ} (hmain : s.main = .after before false) :
      MainStep capacity s fails { s with main := .closeAb }
  | closedAb (hmain : s.main = .closeAb) :
      MainStep capacity s fails { s with ab := { s.ab with writer := false }, main := .closeBa }
  | closedBa (hmain : s.main = .closeBa) :
      MainStep capacity s fails { s with ba := { s.ba with reader := false }, main := .join }
  | joined (hmain : s.main = .join) (hdone : s.responder = .done) :
      MainStep capacity s fails { s with main := .done }

theorem mainStep_cases (h : mainStep capacity s fails = some s') : MainStep capacity s fails s' := by
  unfold mainStep at h
  split at h
  · rename_i hmain
    cases h
    split_ifs with htime
    · exact .entered hmain htime
    · exact .left hmain (not_lt.1 htime)
  · cases h
    exact .timed ‹_›
  · rename_i hmain
    split_ifs at h with hfails hreader hroom
    · cases h
      exact .unsent hmain hfails
    · cases h
      exact .broke hmain hreader
    · cases h
      exact .sent hmain (Bool.eq_true_of_not_eq_false hreader)
  · rename_i hmain
    split_ifs at h with hfails hbytes hwriter
    · cases h
      exact .missed hmain (.inl hfails)
    · cases h
      exact .received hmain hbytes
    · cases h
      exact .missed hmain (.inr ⟨Nat.eq_zero_of_not_pos hbytes, Bool.eq_false_of_not_eq_true hwriter⟩)
  · cases h
    exact .sampled ‹_›
  · cases h
    exact .stopped ‹_›
  · cases h
    exact .closedAb ‹_›
  · cases h
    exact .closedBa ‹_›
  · split_ifs at h with hdone
    cases h
    exact .joined ‹_› hdone
  · cases h

/-- What a step of `responder` does. -/
inductive ResponderStep (s : State) (fails : Bool) : State → Prop
  | took (hresponder : s.responder = .read) (hbytes : 0 < s.ab.bytes) :
      ResponderStep s fails
        { s with ab := { s.ab with bytes := s.ab.bytes - 1 }, responder := .write }
  | ended (hresponder : s.responder = .read)
      (hwhy : fails = true ∨ s.ab.bytes = 0 ∧ s.ab.writer = false) :
      ResponderStep s fails { s with responder := .closeRead }
  | unsent (hresponder : s.responder = .write) (hfails : fails = true) :
      ResponderStep s fails { s with responder := .closeRead, failed := true }
  | broke (hresponder : s.responder = .write) (hreader : s.ba.reader = false) :
      ResponderStep s fails { s with killed := true }
  | sent (hresponder : s.responder = .write) (hreader : s.ba.reader = true) :
      ResponderStep s fails
        { s with ba := { s.ba with bytes := s.ba.bytes + 1 }, responder := .read }
  | closedRead (hresponder : s.responder = .closeRead) :
      ResponderStep s fails
        { s with ab := { s.ab with reader := false }, responder := .closeWrite }
  | closedWrite (hresponder : s.responder = .closeWrite) :
      ResponderStep s fails { s with ba := { s.ba with writer := false }, responder := .done }

theorem responderStep_cases (h : responderStep capacity s fails = some s') :
    ResponderStep s fails s' := by
  unfold responderStep at h
  split at h
  · rename_i hresponder
    split_ifs at h with hfails hbytes hwriter
    · cases h
      exact .ended hresponder (.inl hfails)
    · cases h
      exact .took hresponder hbytes
    · cases h
      exact .ended hresponder
        (.inr ⟨Nat.eq_zero_of_not_pos hbytes, Bool.eq_false_of_not_eq_true hwriter⟩)
  · rename_i hresponder
    split_ifs at h with hfails hreader hroom
    · cases h
      exact .unsent hresponder hfails
    · cases h
      exact .broke hresponder hreader
    · cases h
      exact .sent hresponder (Bool.eq_true_of_not_eq_false hreader)
  · cases h
    exact .closedRead ‹_›
  · cases h
    exact .closedWrite ‹_›
  · cases h

end Steps

/-! ### How the threads are linked -/

namespace MainPhase

/-- The write end of `ab` is open. -/
def writes : MainPhase → Bool
  | closeBa | join | done => false
  | _ => true

/-- The read end of `ba` is open. -/
def reads : MainPhase → Bool
  | join | done => false
  | _ => true

/-- The token is here. -/
def hasToken : MainPhase → Bool
  | check | before | write _ | after _ true => true
  | _ => false

/-- The token has been sent. -/
def waits : MainPhase → Bool
  | read _ => true
  | _ => false

end MainPhase

namespace ResponderPhase

/-- The read end of `ab` is open. -/
def reads : ResponderPhase → Bool
  | closeWrite | done => false
  | _ => true

/-- The write end of `ba` is open. -/
def writes : ResponderPhase → Bool
  | done => false
  | _ => true

/-- The thread is in its loop. -/
def loops : ResponderPhase → Bool
  | read | write => true
  | _ => false

/-- The tokens that the thread holds. -/
def holds : ResponderPhase → ℕ
  | write => 1
  | _ => 0

end ResponderPhase

section Linked

variable {capacity : ℕ} {start span : ℤ} {s s' : State} {e : Event} {es : List Event} {fails : Bool}

/-- The tokens that `main` has sent and not read back, as far as they are not lost. -/
def State.inFlight (s : State) : ℕ := s.ab.bytes + s.ba.bytes + s.responder.holds

/-- What holds of the threads and the pipes, whatever fails. -/
structure Linked (s : State) : Prop where
  abWriter : s.ab.writer = s.main.writes
  baReader : s.ba.reader = s.main.reads
  abReader : s.ab.reader = s.responder.reads
  baWriter : s.ba.writer = s.responder.writes
  one : s.inFlight ≤ 1
  rest : s.main.hasToken = true → s.inFlight = 0
  wait : s.main.waits = true → s.responder.loops = true → s.inFlight = 1
  joined : s.main = .done → s.responder = .done

theorem linked_init : Linked (init start span) :=
  ⟨rfl, rfl, rfl, rfl, Nat.zero_le _, fun _ => rfl, nofun, nofun⟩

theorem Linked.main (hs : Linked s) (h : MainStep capacity s fails s') : Linked s' := by
  obtain ⟨habWriter, hbaReader, habReader, hbaWriter, hone, hrest, hwait, hjoined⟩ := hs
  open MainPhase in
  cases h with
  | broke => exact ⟨habWriter, hbaReader, habReader, hbaWriter, hone, hrest, hwait, hjoined⟩
  | sent hmain hreader =>
    have hnone := hrest (by rw [hmain]; rfl)
    constructor <;> simp_all [State.inFlight, writes, reads, hasToken, waits]
  | received hmain hbytes =>
    -- the token that comes back is the one in flight
    constructor <;> simp_all [State.inFlight, writes, reads, hasToken, waits]
    · omega
    · omega
  | entered hmain | left hmain | timed hmain | unsent hmain | missed hmain | sampled hmain
  | stopped hmain | closedAb hmain | closedBa hmain | joined hmain =>
    constructor <;> simp_all [State.inFlight, writes, reads, hasToken, waits]

theorem Linked.responder (hs : Linked s) (h : ResponderStep s fails s') : Linked s' := by
  obtain ⟨habWriter, hbaReader, habReader, hbaWriter, hone, hrest, hwait, hjoined⟩ := hs
  open ResponderPhase in
  cases h with
  | broke => exact ⟨habWriter, hbaReader, habReader, hbaWriter, hone, hrest, hwait, hjoined⟩
  | took hresponder hbytes =>
    -- the token goes from the pipe to the thread
    have hmoves : s.ab.bytes - 1 + s.ba.bytes + 1 = s.inFlight := by
      simp only [State.inFlight, hresponder, holds]
      omega
    rw [hresponder] at habReader hbaWriter hwait hjoined
    exact ⟨habWriter, hbaReader, habReader, hbaWriter, hmoves.le.trans hone,
      fun hmain => hmoves.trans (hrest hmain), fun hmain _ => hmoves.trans (hwait hmain rfl),
      fun hmain => nomatch hjoined hmain⟩
  | ended hresponder | unsent hresponder | sent hresponder | closedRead hresponder
  | closedWrite hresponder =>
    constructor <;> simp_all [State.inFlight, reads, writes, loops, holds]

theorem linked_step (h : step capacity s e = some s') (hs : Linked s) : Linked s' := by
  cases e with
  | tick us =>
    cases h
    exact ⟨hs.abWriter, hs.baReader, hs.abReader, hs.baWriter, hs.one, hs.rest, hs.wait, hs.joined⟩
  | main fails =>
    simp only [step] at h
    split_ifs at h
    exact hs.main (mainStep_cases h)
  | responder fails =>
    simp only [step] at h
    split_ifs at h
    exact hs.responder (responderStep_cases h)

theorem linked_run (h : Transition.run (step capacity) (init start span) es = some s) : Linked s :=
  Transition.run_preserves_all (fun _ _ _ => linked_step) h linked_init

/-! ### Ends -/

/-- Both threads have ended, or the process has been killed. -/
def State.Ended (s : State) : Prop := s.killed = true ∨ s.main = .done ∧ s.responder = .done

/-- A thread can take a step in which no call fails. -/
def CanGo (capacity : ℕ) (s : State) : Prop :=
  ∃ e : Event, e.isThread = true ∧ e.fails = false ∧ (step capacity s e).isSome = true

theorem canGo_main (hkilled : s.killed = false) (h : (mainStep capacity s false).isSome = true) :
    CanGo capacity s := ⟨.main false, rfl, rfl, by simpa [step, hkilled] using h⟩

theorem canGo_responder (hkilled : s.killed = false)
    (h : (responderStep capacity s false).isSome = true) : CanGo capacity s :=
  ⟨.responder false, rfl, rfl, by simpa [step, hkilled] using h⟩

/-- **No deadlock.**  The threads never wait for each other. -/
theorem canGo_of_linked (hcapacity : 0 < capacity) (hs : Linked s) (hends : ¬s.Ended) :
    CanGo capacity s := by
  have hkilled : s.killed = false := Bool.eq_false_of_not_eq_true fun h => hends (.inl h)
  have habWriter := hs.abWriter
  have hbaWriter := hs.baWriter
  have hone := hs.one
  unfold State.inFlight at hone
  -- a responder that has not ended can go on, unless it waits for a token
  have hresponder : s.responder ≠ .done → (s.responder = .read → 0 < s.ab.bytes ∨ s.ab.writer = false) →
      CanGo capacity s := by
    intro hdone hread
    refine canGo_responder hkilled ?_
    cases hphase : s.responder with
    | read =>
      rcases hread hphase with hbytes | hwriter
      · simp [responderStep, hphase, hbytes]
      · by_cases hbytes : 0 < s.ab.bytes
        · simp [responderStep, hphase, hbytes]
        · simp [responderStep, hphase, hbytes, hwriter]
    | write =>
      rw [hphase] at hone
      have hroom : s.ba.bytes < capacity := by
        simp only [ResponderPhase.holds] at hone
        omega
      by_cases hreader : s.ba.reader = false
      · simp [responderStep, hphase, hreader]
      · simp [responderStep, hphase, hreader, hroom]
    | closeRead => simp [responderStep, hphase]
    | closeWrite => simp [responderStep, hphase]
    | done => exact absurd hphase hdone
  cases hphase : s.main with
  | check | before | closeAb | closeBa => exact canGo_main hkilled (by simp [mainStep, hphase])
  | after before back =>
    cases back with
    | true => exact canGo_main hkilled (by simp [mainStep, hphase])
    | false => exact canGo_main hkilled (by simp [mainStep, hphase])
  | write before =>
    have hrest := hs.rest (by rw [hphase]; rfl)
    have hroom : s.ab.bytes < capacity := by
      unfold State.inFlight at hrest
      omega
    refine canGo_main hkilled ?_
    by_cases hreader : s.ab.reader = false
    · simp [mainStep, hphase, hreader]
    · simp [mainStep, hphase, hreader, hroom]
  | read before =>
    by_cases hready : 0 < s.ba.bytes ∨ s.ba.writer = false
    · refine canGo_main hkilled ?_
      by_cases hbytes : 0 < s.ba.bytes
      · simp [mainStep, hphase, hbytes]
      · simp [mainStep, hphase, hbytes, hready.resolve_left hbytes]
    · obtain ⟨hbytes, hwriter⟩ := not_or.1 hready
      refine hresponder (fun hdone => ?_) fun hread => .inl ?_
      · rw [hdone] at hbaWriter
        exact hwriter hbaWriter
      · have hwait := hs.wait (by rw [hphase]; rfl) (by rw [hread]; rfl)
        simp only [State.inFlight, hread, ResponderPhase.holds] at hwait
        omega
  | join =>
    by_cases hdone : s.responder = .done
    · exact canGo_main hkilled (by simp [mainStep, hphase, hdone])
    · exact hresponder hdone fun _ => .inr (by rw [habWriter, hphase]; rfl)
  | done => exact absurd (.inr ⟨hphase, hs.joined hphase⟩) hends

/-- How far `main` is from its end when the time is over. -/
def MainPhase.rank : MainPhase → ℕ
  | before => 10
  | write _ => 9
  | read _ => 6
  | after _ _ => 5
  | check => 4
  | closeAb => 3
  | closeBa => 2
  | join => 1
  | done => 0

/-- How far `responder` is from its end when no more tokens come. -/
def ResponderPhase.rank : ResponderPhase → ℕ
  | write => 4
  | read => 3
  | closeRead => 2
  | closeWrite => 1
  | done => 0

/-- How many steps the threads can take at most when the time is over. -/
def State.rank (s : State) : ℕ :=
  if s.killed then 0 else s.main.rank + s.responder.rank + 2 * s.ab.bytes

theorem rank_step (htime : s.stop ≤ s.now) (he : e.isThread = true)
    (h : step capacity s e = some s') : s'.rank < s.rank := by
  cases e with
  | tick us => cases he
  | main fails =>
    simp only [step] at h
    split_ifs at h with hkilled
    cases mainStep_cases h with
    | entered hmain hbefore => exact absurd htime (not_le.2 hbefore)
    | sent hmain =>
      -- the token gives the responder two more steps
      simp only [State.rank, hkilled, hmain, MainPhase.rank, Bool.false_eq_true, if_false]
      omega
    | left hmain | timed hmain | unsent hmain | broke hmain | received hmain | missed hmain
    | sampled hmain | stopped hmain | closedAb hmain | closedBa hmain | joined hmain =>
      simp [State.rank, hkilled, hmain, MainPhase.rank]
  | responder fails =>
    simp only [step] at h
    split_ifs at h with hkilled
    cases responderStep_cases h with
    | took hresponder hbytes =>
      simp only [State.rank, hkilled, hresponder, ResponderPhase.rank, Bool.false_eq_true, if_false]
      omega
    | ended hresponder | unsent hresponder | broke hresponder | sent hresponder
    | closedRead hresponder | closedWrite hresponder =>
      simp [State.rank, hkilled, hresponder, ResponderPhase.rank]

theorem clock_step (h : step capacity s e = some s') : s'.stop = s.stop ∧ s.now ≤ s'.now := by
  cases e with
  | tick us =>
    cases h
    exact ⟨rfl, by simp⟩
  | main fails =>
    simp only [step] at h
    split_ifs at h
    cases mainStep_cases h <;> exact ⟨rfl, le_rfl⟩
  | responder fails =>
    simp only [step] at h
    split_ifs at h
    cases responderStep_cases h <;> exact ⟨rfl, le_rfl⟩

theorem rank_step_le (htime : s.stop ≤ s.now) (h : step capacity s e = some s') :
    (if e.isThread then 1 else 0) + s'.rank ≤ s.rank := by
  cases he : e.isThread with
  | true =>
    have := rank_step htime he h
    simp only [if_true]
    omega
  | false =>
    cases e with
    | tick us =>
      cases h
      simp [State.rank]
    | main | responder => cases he

theorem Linked.rank_le (hs : Linked s) : s.rank ≤ 13 := by
  have hone := hs.one
  have hrest := hs.rest
  unfold State.rank
  unfold State.inFlight at hone hrest
  split_ifs
  · omega
  · cases hmain : s.main <;> cases hresponder : s.responder <;>
      simp_all [MainPhase.rank, ResponderPhase.rank, MainPhase.hasToken, ResponderPhase.holds] <;> omega

theorem rank_run {later : List Event} (htime : s.stop ≤ s.now)
    (h : Transition.run (step capacity) s later = some s') :
    s'.stop ≤ s'.now ∧ later.countP Event.isThread + s'.rank ≤ s.rank := by
  refine Transition.run_history (P := fun done t =>
    t.stop ≤ t.now ∧ done.countP Event.isThread + t.rank ≤ s.rank) ⟨htime, by simp⟩ ?_ h
  intro done t e t' _ hstep hbefore
  obtain ⟨hstop, hnow⟩ := clock_step hstep
  have := rank_step_le hbefore.1 hstep
  have := hbefore.2
  refine ⟨hstop ▸ hbefore.1.trans hnow, ?_⟩
  rw [List.countP_append, List.countP_singleton]
  omega

/-- **No thread waits for ever.**  When the time is over, whatever has failed before, the two threads
take at most 13 more steps, and as long as the process has not ended one of them can go on without
another failure. -/
theorem always_ends (hcapacity : 0 < capacity) {later : List Event}
    (h : Transition.run (step capacity) (init start span) es = some s) (htime : s.stop ≤ s.now)
    (hlater : Transition.run (step capacity) s later = some s') :
    later.countP Event.isThread ≤ 13 ∧ (s'.Ended ∨ CanGo capacity s') := by
  have hlinked := linked_run h
  have hrank := (rank_run htime hlater).2
  have hle := hlinked.rank_le
  have hlinked' : Linked s' := Transition.run_preserves_all (fun _ _ _ => linked_step) hlater hlinked
  refine ⟨by omega, ?_⟩
  by_cases hends : s'.Ended
  · exact .inl hends
  · exact .inr (canGo_of_linked hcapacity hlinked' hends)

/-- Nobody has answered when the time is over. -/
theorem always_ends_unanswered : ∃ s s', Transition.run (step 1) (init 0 10)
      [.main false, .main false, .main false, .tick 10] = some s ∧
    Transition.run (step 1) s [.responder true, .responder false] = some s' ∧
    [Event.responder true, .responder false].countP Event.isThread ≤ 13 ∧
      (s'.Ended ∨ CanGo 1 s') := by
  have hrun : Transition.run (step 1) (init 0 10)
      [.main false, .main false, .main false, .tick 10] = some _ := rfl
  refine ⟨_, _, hrun, rfl, always_ends (by decide) hrun (by decide) rfl⟩

end Linked

/-! ### Without failures -/

section Safe

variable {capacity : ℕ} {start span : ℤ} {s s' : State} {e : Event} {es : List Event}

/-- What holds when no call fails. -/
structure Sound (s : State) : Prop where
  killed : s.killed = false
  failed : s.failed = false
  back : ∀ before, s.main ≠ .after before false
  loops : s.main.writes = true → s.responder.loops = true
  settled : s.main.waits = false → s.inFlight = 0

theorem sound_init : Sound (init start span) := ⟨rfl, rfl, nofun, fun _ => rfl, fun _ => rfl⟩

theorem Sound.main (hlinked : Linked s) (hs : Sound s) (h : MainStep capacity s false s') :
    Sound s' := by
  obtain ⟨hkilled, hfailed, hback, hloops, hsettled⟩ := hs
  open MainPhase in
  cases h with
  | unsent hmain hfails => cases hfails
  | @broke before hmain hreader =>
    have hopen := hloops (by rw [hmain]; rfl)
    rw [hlinked.abReader] at hreader
    cases hresponder : s.responder <;> simp_all [ResponderPhase.reads, ResponderPhase.loops]
  | received hmain hbytes =>
    have hone := hlinked.one
    constructor <;> simp_all [State.inFlight, writes, waits]
    omega
  | @missed before hmain hwhy =>
    rcases hwhy with hfails | ⟨hbytes, hwriter⟩
    · cases hfails
    · have hopen := hloops (by rw [hmain]; rfl)
      rw [hlinked.baWriter] at hwriter
      cases hresponder : s.responder <;> simp_all [ResponderPhase.writes, ResponderPhase.loops]
  | stopped hmain => exact absurd hmain (hback _)
  | entered hmain | left hmain | timed hmain | sent hmain | sampled hmain | closedAb hmain
  | closedBa hmain | joined hmain =>
    constructor <;> simp_all [State.inFlight, writes, waits]

theorem Sound.responder (hlinked : Linked s) (hs : Sound s) (h : ResponderStep s false s') :
    Sound s' := by
  obtain ⟨hkilled, hfailed, hback, hloops, hsettled⟩ := hs
  open ResponderPhase in
  cases h with
  | took hresponder hbytes =>
    have hwaits : s.main.waits = true := by
      by_contra hwaits
      have := hsettled (Bool.eq_false_of_not_eq_true hwaits)
      simp only [State.inFlight] at this
      omega
    constructor <;> simp_all [ResponderPhase.loops]
  | unsent hresponder hfails => cases hfails
  | broke hresponder hreader =>
    -- the token is still in flight, so `main` waits for it
    have hmain : s.main.waits = true := by
      by_contra hmain
      have := hsettled (Bool.eq_false_of_not_eq_true hmain)
      simp [State.inFlight, hresponder, holds] at this
    rw [hlinked.baReader] at hreader
    cases hphase : s.main <;> simp_all [MainPhase.waits, MainPhase.reads]
  | ended hresponder hwhy =>
    rcases hwhy with hfails | ⟨hbytes, hwriter⟩
    · cases hfails
    · rw [hlinked.abWriter] at hwriter
      constructor <;> simp_all [State.inFlight, ResponderPhase.loops, holds]
  | sent hresponder | closedRead hresponder | closedWrite hresponder =>
    constructor <;> simp_all [State.inFlight, ResponderPhase.loops, holds]

theorem sound_step (hfails : e.fails = false) (h : step capacity s e = some s')
    (hs : Linked s ∧ Sound s) : Linked s' ∧ Sound s' := by
  refine ⟨linked_step h hs.1, ?_⟩
  cases e with
  | tick us =>
    cases h
    exact ⟨hs.2.killed, hs.2.failed, hs.2.back, hs.2.loops, hs.2.settled⟩
  | main fails =>
    cases hfails
    simp only [step] at h
    split_ifs at h
    exact hs.2.main hs.1 (mainStep_cases h)
  | responder fails =>
    cases hfails
    simp only [step] at h
    split_ifs at h
    exact hs.2.responder hs.1 (responderStep_cases h)

/-- **Without a failing call nothing breaks.**  In whatever order the threads run, no `SIGPIPE` comes
and `failed` stays unset; there is one token, on its way while `main` waits for it and not otherwise;
and when `main` is done the pipes are empty and all their ends are closed. -/
theorem token_safe (hfails : ∀ e ∈ es, e.fails = false)
    (h : Transition.run (step capacity) (init start span) es = some s) :
    s.killed = false ∧ s.failed = false ∧ s.inFlight = (if s.main.waits then 1 else 0) ∧
      (s.main = .done → s.ab = ⟨0, false, false⟩ ∧ s.ba = ⟨0, false, false⟩) := by
  have hstep : ∀ s e s', e.fails = false → step capacity s e = some s' →
      Linked s ∧ Sound s → Linked s' ∧ Sound s' := fun _ _ _ => sound_step
  obtain ⟨hlinked, hs⟩ := Transition.run_preserves hstep
    (Transition.allowed_of_forall fun e he _ => hfails e he) h ⟨linked_init, sound_init⟩
  refine ⟨hs.killed, hs.failed, ?_, fun hdone => ?_⟩
  · cases hwaits : s.main.waits with
    | false => simpa using hs.settled hwaits
    | true =>
      have hwrites : s.main.writes = true := by
        cases hmain : s.main <;> simp_all [MainPhase.waits, MainPhase.writes]
      simpa using hlinked.wait hwaits (hs.loops hwrites)
  · have hresponder := hlinked.joined hdone
    have hnone := hs.settled (by rw [hdone]; rfl)
    have habWriter := hlinked.abWriter
    have habReader := hlinked.abReader
    have hbaWriter := hlinked.baWriter
    have hbaReader := hlinked.baReader
    rw [hdone] at habWriter hbaReader
    rw [hresponder] at habReader hbaWriter
    simp only [State.inFlight, Nat.add_eq_zero_iff] at hnone
    exact ⟨Pipe.ext hnone.1.1 habReader habWriter, Pipe.ext hnone.1.2 hbaReader hbaWriter⟩

/-- A round trip, and the time it takes. -/
def trip (us : ℕ) : List Event :=
  [.main false, .main false, .main false, .responder false, .tick us, .responder false, .main false,
    .main false]

/-- Three round trips, and the end. -/
def threeTrips : List Event :=
  trip 7 ++ trip 20 ++ trip 4 ++ [.main false, .main false, .main false, .responder false,
    .responder false, .responder false, .main false]

theorem token_safe_threeTrips : ∃ s, Transition.run (step 1) (init 0 30) threeTrips = some s ∧
    s.killed = false ∧ s.failed = false ∧ s.inFlight = (if s.main.waits then 1 else 0) ∧
      (s.main = .done → s.ab = ⟨0, false, false⟩ ∧ s.ba = ⟨0, false, false⟩) := by
  have hrun : Transition.run (step 1) (init 0 30) threeTrips = some _ := rfl
  exact ⟨_, hrun, token_safe (by decide) hrun⟩

end Safe

/-! ### The samples -/

section Samples

variable {capacity : ℕ} {start span : ℤ} {s s' : State} {e : Event} {es : List Event}

/-- The time at which the round trip of `main` began. -/
def MainPhase.since : MainPhase → Option ℤ
  | write time | read time | after time _ => some time
  | _ => none

/-- A token that has come back and is not in the samples yet. -/
def MainPhase.fresh : MainPhase → ℕ
  | after _ true => 1
  | _ => 0

/-- The samples fill the time before the round trip of `main` at most. -/
structure Accounted (start : ℤ) (s : State) : Prop where
  since : ∀ time, s.main.since = some time → start + s.samples.sum ≤ time ∧ time ≤ s.now
  now : start + s.samples.sum ≤ s.now
  count : s.samples.length = min maxSamples (s.returned - s.main.fresh)
  fresh : s.main.fresh ≤ s.returned

theorem accounted_init : Accounted start (init start span) :=
  ⟨nofun, by simp [init], rfl, Nat.zero_le _⟩

theorem Accounted.of_main (hs : Accounted start s) {fails : Bool}
    (h : MainStep capacity s fails s') : Accounted start s' := by
  obtain ⟨hsince, hnow, hcount, hfresh⟩ := hs
  cases h with
  | broke => exact ⟨hsince, hnow, hcount, hfresh⟩
  | @sampled time hmain =>
    obtain ⟨hbefore, hle⟩ := hsince time (by rw [hmain]; rfl)
    rw [hmain, MainPhase.fresh] at hcount hfresh
    refine ⟨nofun, ?_, ?_, Nat.zero_le _⟩
    · dsimp only
      split_ifs
      · rw [List.sum_append, List.sum_singleton]
        omega
      · exact hnow
    · dsimp only [MainPhase.fresh]
      split_ifs
      · rw [List.length_append, List.length_singleton]
        omega
      · omega
  | timed hmain | unsent hmain | sent hmain | received hmain | missed hmain | entered hmain
  | left hmain | stopped hmain | closedAb hmain | closedBa hmain | joined hmain =>
    constructor <;> simp_all [MainPhase.since, MainPhase.fresh]

theorem accounted_step (h : step capacity s e = some s') (hs : Accounted start s) :
    Accounted start s' := by
  cases e with
  | tick us =>
    cases h
    have hnow := hs.now
    refine ⟨fun time htime => ?_, by dsimp only; omega, hs.count, hs.fresh⟩
    obtain ⟨hsum, hle⟩ := hs.since time htime
    exact ⟨hsum, by dsimp only; omega⟩
  | main fails =>
    simp only [step] at h
    split_ifs at h
    exact hs.of_main (mainStep_cases h)
  | responder fails =>
    simp only [step] at h
    split_ifs at h
    cases responderStep_cases h <;> exact ⟨hs.since, hs.now, hs.count, hs.fresh⟩

theorem percentile_le {samples : List ℕ} {permille permille' : ℕ} (h : permille ≤ permille')
    (hle : permille' ≤ 1000) :
    PeriodicBurn.percentile (samples.insertionSort (· ≤ ·)) permille ≤
      PeriodicBurn.percentile (samples.insertionSort (· ≤ ·)) permille' := by
  unfold PeriodicBurn.percentile
  rw [List.length_insertionSort]
  rcases Nat.eq_zero_or_pos samples.length with hnone | hpos
  · rw [List.length_eq_zero_iff.1 hnone]
    simp
  · have hrank : (samples.length - 1) * permille / 1000 ≤ (samples.length - 1) * permille' / 1000 :=
      Nat.div_le_div_right (Nat.mul_le_mul_left _ h)
    have hlast : (samples.length - 1) * permille' / 1000 < samples.length := by
      have := Nat.mul_le_mul_left (samples.length - 1) hle
      omega
    exact ((Py.atRank_iff_getD 0 (hrank.trans_lt hlast)).2 rfl).le
      ((Py.atRank_iff_getD 0 hlast).2 rfl) hrank

theorem percentile_last (samples : List ℕ) :
    PeriodicBurn.percentile samples 1000 = samples.getLastD 0 := by
  rw [PeriodicBurn.percentile, Nat.mul_div_cancel _ (by decide), List.getLastD_eq_getLast?,
    List.getLast?_eq_getElem?, List.getD_eq_getElem?_getD]

/-- **The samples fit into the time.**  However the threads run and whatever fails, a sample is kept
of each round trip up to `MAX_SAMPLES` of them, all samples together take no longer than the time
that is reported, and the report puts its quantiles in order. -/
theorem samples_account (h : Transition.run (step capacity) (init start span) es = some s)
    (hdone : s.main = .done) :
    (report start s).roundTrips = min maxSamples s.returned ∧
      (s.samples.sum : ℤ) ≤ (report start s).elapsedUs ∧
      (report start s).p50Us ≤ (report start s).p99Us ∧
      (report start s).p99Us ≤ (report start s).p999Us ∧
      (report start s).p999Us ≤ (report start s).maxUs := by
  have hs : Accounted start s :=
    Transition.run_preserves_all (fun _ _ _ => accounted_step) h accounted_init
  have hnow := hs.now
  refine ⟨?_, ?_, percentile_le (by decide) (by decide), percentile_le (by decide) (by decide), ?_⟩
  · have hcount := hs.count
    rw [hdone] at hcount
    simpa [report, MainPhase.fresh] using hcount
  · simp only [report]
    omega
  · simp only [report]
    rw [← percentile_last]
    exact percentile_le (by decide) (by decide)

/-- The middle sample is between the least and the greatest. -/
theorem samples_account_threeTrips : ∃ s, Transition.run (step 1) (init 0 30) threeTrips = some s ∧
    ((report 0 s).p50Us, (report 0 s).maxUs) = (7, 20) ∧
    (report 0 s).roundTrips = min maxSamples s.returned ∧
      (s.samples.sum : ℤ) ≤ (report 0 s).elapsedUs ∧
      (report 0 s).p50Us ≤ (report 0 s).p99Us ∧
      (report 0 s).p99Us ≤ (report 0 s).p999Us ∧
      (report 0 s).p999Us ≤ (report 0 s).maxUs := by
  have hrun : Transition.run (step 1) (init 0 30) threeTrips = some _ := rfl
  exact ⟨_, hrun, by decide +kernel, samples_account hrun rfl⟩

end Samples

end Pingpong

end SchedCoreDelta
