import K8Labs.Transition
import Mathlib.Algebra.Order.BigOperators.Group.List
import Mathlib.Algebra.Order.Ring.Nat
import Mathlib.Data.List.Perm.Basic

/-!
# The load generator of the incidents

`loadgen.py` of phase 7: a producer puts the times at which requests are due into a bounded queue, a
number of workers take them and record an answer or an error for each, and at the end one `None` for
each worker follows.  The threads run in any order.

* `each_once` : **every request that is dispatched is in one place**, and recorded at most once.
* `all_recorded` : whatever the requests do, **the threads end, and every request is recorded**.

The due times, which are increasing, are given by their numbers.
-/

namespace Phase7

namespace LoadGen

/-! ### The threads -/

/-- The arguments of `LoadGen`, as far as the threads read them. -/
structure Args where
  rate : ℕ
  connections : ℕ
  rate_pos : 0 < rate

/-- Where `worker` is. -/
inductive Worker where
  /-- Before `work_q.get`. -/
  | waiting
  /-- It has taken a due time and waits for the time and for the answer. -/
  | requesting (due : ℕ)
  /-- The answer has been read; before the lock. -/
  | answered (due : ℕ)
  /-- An exception has been caught; before the lock. -/
  | failed (due : ℕ)
  | ended
  deriving DecidableEq

/-- Where `run` is behind the start of the workers. -/
inductive Producer where
  | dispatching
  /-- So many `None`s are left to be put; behind the last of them the workers are joined. -/
  | stopping (left : ℕ)
  deriving DecidableEq

/-- The queue, the threads, and what is recorded, with the requests that it is recorded for. -/
structure State where
  queue : List (Option ℕ)
  producer : Producer
  workers : List Worker
  /-- How often `next_due` has been raised. -/
  raised : ℕ
  dispatched : List ℕ
  /-- `self.latencies`. -/
  latencies : List ℕ
  /-- `self.errors`. -/
  errors : List ℕ

/-- The state when all workers are started. -/
def init (args : Args) : State :=
  { queue := []
    producer := .dispatching
    workers := List.replicate args.connections .waiting
    raised := 0
    dispatched := []
    latencies := []
    errors := [] }

/-- What can happen next. -/
inductive Event where
  /-- A request is due. -/
  | due
  /-- The duration is over. -/
  | finish
  /-- `work_q.put(None)`. -/
  | putNone
  /-- `work_q.get` of a worker returns. -/
  | get (i : ℕ)
  /-- The request of a worker ends. -/
  | settle (i : ℕ) (ok : Bool)
  /-- A worker takes the lock. -/
  | record (i : ℕ)
  deriving DecidableEq

/-- `work_q.put_nowait` for the next due time: a full queue drops it. -/
def dispatch (args : Args) (s : State) : State :=
  if s.queue.length < args.rate * 2 then
    { s with
      queue := s.queue ++ [some s.raised]
      dispatched := s.dispatched ++ [s.raised]
      raised := s.raised + 1 }
  else { s with raised := s.raised + 1 }

/-- What a worker does with an item that it has taken. -/
def taken : Option ℕ → Worker
  | some due => .requesting due
  | none => .ended

/-- The worker at a position goes on. -/
def State.goOn (s : State) (i : ℕ) (w : Worker) : State := { s with workers := s.workers.set i w }

/-- The state after an event, if it can happen. -/
def step (args : Args) (s : State) : Event → Option State
  | .due => if s.producer = .dispatching then some (dispatch args s) else none
  | .finish =>
    if s.producer = .dispatching then
      some { s with producer := .stopping args.connections }
    else none
  | .putNone =>
    match s.producer with
    | .stopping (left + 1) =>
      if s.queue.length < args.rate * 2 then
        some { s with queue := s.queue ++ [none], producer := .stopping left }
      else none
    | _ => none
  | .get i =>
    match s.workers[i]?, s.queue with
    | some .waiting, item :: queue => some (State.goOn { s with queue := queue } i (taken item))
    | _, _ => none
  | .settle i ok =>
    match s.workers[i]? with
    | some (.requesting due) => some (s.goOn i (if ok then .answered due else .failed due))
    | _ => none
  | .record i =>
    match s.workers[i]? with
    | some (.answered due) =>
      some (State.goOn { s with latencies := s.latencies ++ [due] } i .waiting)
    | some (.failed due) => some (State.goOn { s with errors := s.errors ++ [due] } i .waiting)
    | _ => none

/-! ### What a step does -/

section Steps

variable {args : Args} {s s' : State} {e : Event}

/-- What an event does, one case for each kind of step. -/
inductive Happens (args : Args) (s : State) : Event → State → Prop
  | queued (hproducer : s.producer = .dispatching) (hroom : s.queue.length < args.rate * 2) :
      Happens args s .due
        { s with
          queue := s.queue ++ [some s.raised]
          dispatched := s.dispatched ++ [s.raised]
          raised := s.raised + 1 }
  | dropped (hproducer : s.producer = .dispatching) :
      Happens args s .due { s with raised := s.raised + 1 }
  | finished (hproducer : s.producer = .dispatching) :
      Happens args s .finish { s with producer := .stopping args.connections }
  | put {left : ℕ} (hproducer : s.producer = .stopping (left + 1))
      (hroom : s.queue.length < args.rate * 2) :
      Happens args s .putNone { s with queue := s.queue ++ [none], producer := .stopping left }
  | got {i : ℕ} {item : Option ℕ} {queue : List (Option ℕ)} (hi : s.workers[i]? = some .waiting)
      (hqueue : s.queue = item :: queue) :
      Happens args s (.get i) (State.goOn { s with queue := queue } i (taken item))
  | settled {i due : ℕ} {ok : Bool} (hi : s.workers[i]? = some (.requesting due)) :
      Happens args s (.settle i ok) (s.goOn i (if ok then .answered due else .failed due))
  | answered {i due : ℕ} (hi : s.workers[i]? = some (.answered due)) :
      Happens args s (.record i)
        (State.goOn { s with latencies := s.latencies ++ [due] } i .waiting)
  | failed {i due : ℕ} (hi : s.workers[i]? = some (.failed due)) :
      Happens args s (.record i) (State.goOn { s with errors := s.errors ++ [due] } i .waiting)

theorem happens_of_step (h : step args s e = some s') : Happens args s e s' := by
  cases e with
  | due =>
    simp only [step] at h
    split_ifs at h with hproducer
    cases h
    unfold dispatch
    split_ifs with hroom
    · exact .queued hproducer hroom
    · exact .dropped hproducer
  | finish =>
    simp only [step] at h
    split_ifs at h with hproducer
    cases h
    exact .finished hproducer
  | putNone =>
    simp only [step] at h
    split at h
    · split_ifs at h with hroom
      cases h
      exact .put ‹_› hroom
    · cases h
  | get i =>
    simp only [step] at h
    split at h
    · cases h
      exact .got ‹_› ‹_›
    · cases h
  | settle i ok =>
    simp only [step] at h
    split at h
    · cases h
      exact .settled ‹_›
    · cases h
  | record i =>
    simp only [step] at h
    split at h
    · cases h
      exact .answered ‹_›
    · cases h
      exact .failed ‹_›
    · cases h

end Steps

/-! ### Every request is in one place -/

section Places

variable {args : Args} {s s' : State} {e : Event} {es : List Event} {d : ℕ}

/-- The request that a worker has. -/
def Worker.due : Worker → Option ℕ
  | requesting due | answered due | failed due => some due
  | waiting | ended => none

/-- The requests that the workers have. -/
def State.held (s : State) : List ℕ := s.workers.filterMap Worker.due

/-- The requests in the queue. -/
def State.queued (s : State) : List ℕ := s.queue.filterMap id

/-- Every request that was dispatched is in one place. -/
structure Placed (s : State) : Prop where
  places : ∀ d, s.dispatched.count d =
    s.latencies.count d + s.errors.count d + s.held.count d + s.queued.count d
  nodup : s.dispatched.Nodup
  below : ∀ d ∈ s.dispatched, d < s.raised

theorem placed_init : Placed (init args) :=
  have hheld : (init args).held = [] := List.filterMap_replicate_of_none rfl
  ⟨fun d => by rw [hheld]; rfl, List.nodup_nil, nofun⟩

/-- The workers are the one at a position and the others. -/
theorem workers_perm {i : ℕ} {w : Worker} (hi : s.workers[i]? = some w) :
    s.workers.Perm (w :: s.workers.eraseIdx i) := by
  obtain ⟨hlt, rfl⟩ := List.getElem?_eq_some_iff.1 hi
  exact (List.getElem_cons_eraseIdx_perm hlt).symm

/-- A worker that goes on takes its own place among the others. -/
theorem set_perm {i : ℕ} {w : Worker} (hi : s.workers[i]? = some w) (w' : Worker) :
    (s.workers.set i w').Perm (w' :: s.workers.eraseIdx i) :=
  List.set_perm_cons_eraseIdx (List.getElem?_eq_some_iff.1 hi).1 _

/-- The requests of the workers, before and after one of them goes on. -/
theorem count_held {i : ℕ} {w : Worker} (hi : s.workers[i]? = some w) (w' : Worker) (d : ℕ) :
    ((s.workers.set i w').filterMap Worker.due).count d + w.due.toList.count d =
      s.held.count d + w'.due.toList.count d := by
  have hcons : ∀ (w : Worker) (ws : List Worker), ((w :: ws).filterMap Worker.due).count d =
      w.due.toList.count d + (ws.filterMap Worker.due).count d := by
    intro w ws
    cases hdue : w.due with
    | none => simp [hdue]
    | some due =>
      rw [List.filterMap_cons_some hdue, List.count_cons]
      simp [List.count_singleton, Nat.add_comm]
  rw [((set_perm hi w').filterMap _).count_eq, State.held, ((workers_perm hi).filterMap _).count_eq,
    hcons, hcons]
  omega

theorem due_taken (item : Option ℕ) : (taken item).due = item := by
  cases item <;> rfl

theorem placed_step (h : step args s e = some s') (hs : Placed s) : Placed s' := by
  obtain ⟨hplaces, hnodup, hbelow⟩ := hs
  cases happens_of_step h with
  | queued hproducer hroom =>
    refine ⟨fun d => ?_, ?_, fun d hd => ?_⟩
    · have hplace := hplaces d
      simp only [State.held, State.queued, List.count_append, List.filterMap_append,
        List.filterMap_cons, id_eq, List.filterMap_nil] at hplace ⊢
      omega
    · refine List.nodup_append.2 ⟨hnodup, by simp, fun a ha b hb => ?_⟩
      rw [List.mem_singleton.1 hb]
      exact Nat.ne_of_lt (hbelow a ha)
    · rcases List.mem_append.1 hd with hd | hd
      · exact Nat.lt_succ_of_lt (hbelow d hd)
      · rw [List.mem_singleton.1 hd]
        exact Nat.lt_succ_self _
  | dropped hproducer => exact ⟨hplaces, hnodup, fun d hd => Nat.lt_succ_of_lt (hbelow d hd)⟩
  | finished hproducer => exact ⟨hplaces, hnodup, hbelow⟩
  | put hproducer hroom =>
    refine ⟨fun d => ?_, hnodup, hbelow⟩
    simpa [State.held, State.queued] using hplaces d
  | @got i item queue hi hqueue =>
    refine ⟨fun d => ?_, hnodup, hbelow⟩
    have hheld := count_held hi (taken item) d
    have hplace := hplaces d
    have hqueued : s.queued.count d = item.toList.count d + (queue.filterMap id).count d := by
      cases item <;> simp [State.queued, hqueue, List.count_cons, Nat.add_comm]
    rw [due_taken] at hheld
    simp only [State.goOn, State.held, State.queued, Worker.due, Option.toList_none,
      List.count_nil] at *
    omega
  | @settled i due ok hi =>
    refine ⟨fun d => ?_, hnodup, hbelow⟩
    have hheld := count_held hi (if ok then .answered due else .failed due) d
    have hdue : (if ok then Worker.answered due else .failed due).due = some due := by
      cases ok <;> rfl
    have hplace := hplaces d
    rw [hdue] at hheld
    simp only [State.goOn, State.held, State.queued, Worker.due] at *
    omega
  | @answered i due hi =>
    refine ⟨fun d => ?_, hnodup, hbelow⟩
    have hheld := count_held hi .waiting d
    have hplace := hplaces d
    simp only [State.goOn, State.held, State.queued, Worker.due, Option.toList_none,
      Option.toList_some, List.count_nil, List.count_append] at *
    omega
  | @failed i due hi =>
    refine ⟨fun d => ?_, hnodup, hbelow⟩
    have hheld := count_held hi .waiting d
    have hplace := hplaces d
    simp only [State.goOn, State.held, State.queued, Worker.due, Option.toList_none,
      Option.toList_some, List.count_nil, List.count_append] at *
    omega

theorem placed_run (h : Transition.run (step args) (init args) es = some s) : Placed s :=
  Transition.run_preserves_all (fun _ _ _ => placed_step) h placed_init

/-- **Every request is in one place.**  In whatever order the threads run, no request is dispatched
twice, and each that is dispatched is in the queue, with a worker, among the answers or among the
errors, in one of these places and once. -/
theorem each_once (h : Transition.run (step args) (init args) es = some s) :
    s.dispatched.Nodup ∧
      s.dispatched.Perm (s.latencies ++ s.errors ++ s.held ++ s.queued) := by
  have hs := placed_run h
  refine ⟨hs.nodup, List.perm_iff_count.2 fun d => ?_⟩
  simp only [List.count_append, hs.places d]

end Places

/-! ### The end -/

section Ends

variable {args : Args} {s s' : State} {e : Event} {es : List Event}

/-- How many `None`s are left to be put. -/
def Producer.left (args : Args) : Producer → ℕ
  | dispatching => args.connections
  | stopping left => left

/-- The `None`s stand behind all requests, and each worker takes one of them. -/
structure Ordered (args : Args) (s : State) : Prop where
  queue : ∃ dues nones, s.queue = dues.map some ++ List.replicate nones none ∧
    nones + s.workers.count .ended + s.producer.left args = args.connections ∧
      (0 < s.workers.count .ended → dues = [])
  workers : s.workers.length = args.connections
  room : s.queue.length ≤ args.rate * 2

theorem ordered_init : Ordered args (init args) :=
  ⟨⟨[], 0, rfl, by simp [init, Producer.left, List.count_replicate], fun _ => rfl⟩,
    by simp [init], Nat.zero_le _⟩

theorem count_ended {i : ℕ} {w : Worker} (hi : s.workers[i]? = some w) (w' : Worker) :
    (s.workers.set i w').count .ended + [w].count .ended =
      s.workers.count .ended + [w'].count .ended := by
  rw [(set_perm hi w').count_eq, (workers_perm hi).count_eq, List.count_cons, List.count_cons,
    List.count_cons, List.count_cons, List.count_nil]
  omega

theorem ordered_goOn {i : ℕ} {w w' : Worker} (hs : Ordered args s) (hi : s.workers[i]? = some w)
    (hw : w ≠ .ended) (hw' : w' ≠ .ended) (latencies errors : List ℕ) :
    Ordered args
      { s with workers := s.workers.set i w', latencies := latencies, errors := errors } := by
  have hcount := count_ended hi w'
  simp only [List.count_singleton, beq_iff_eq, hw, hw', if_false, Nat.add_zero] at hcount
  refine ⟨?_, by simpa using hs.workers, hs.room⟩
  simpa only [hcount] using hs.queue

theorem ordered_step (h : step args s e = some s') (hs : Ordered args s) : Ordered args s' := by
  obtain ⟨dues, nones, hqueue, hsum, hends⟩ := hs.queue
  have hworkers := hs.workers
  have hlength := hs.room
  cases happens_of_step h with
  | queued hproducer hroom =>
    rw [hproducer, Producer.left] at hsum
    obtain rfl : nones = 0 := by omega
    refine ⟨⟨dues ++ [s.raised], 0, by simp [hqueue], by rw [hproducer, Producer.left]; omega, ?_⟩,
      hworkers, by simp; omega⟩
    intro hended
    dsimp only at hended
    omega
  | dropped hproducer => exact ⟨hs.queue, hworkers, hlength⟩
  | finished hproducer =>
    rw [hproducer] at hsum
    exact ⟨⟨dues, nones, hqueue, hsum, hends⟩, hworkers, hlength⟩
  | put hproducer hroom =>
    rw [hproducer, Producer.left] at hsum
    refine ⟨⟨dues, nones + 1, ?_, by simp only [Producer.left]; omega, hends⟩, hworkers,
      by simp; omega⟩
    rw [hqueue, List.append_assoc, ← List.replicate_succ']
  | @got i item queue hi hitem =>
    have hcount := count_ended hi (taken item)
    have hset : (s.workers.set i (taken item)).length = args.connections := by simpa using hworkers
    rw [hitem, List.length_cons] at hlength
    rw [hitem] at hqueue
    cases dues with
    | cons due dues =>
      obtain ⟨rfl, hrest⟩ := List.cons.inj hqueue
      simp only [taken, List.count_singleton] at hcount
      have hnone : s.workers.count .ended = 0 := by
        by_contra hended
        exact absurd (hends (Nat.pos_of_ne_zero hended)) (by simp)
      have hsame : (s.workers.set i (.requesting due)).count .ended = 0 := by simpa [hnone] using hcount
      refine ⟨⟨dues, nones, hrest, ?_, fun hended => ?_⟩, hset, by simp only [State.goOn]; omega⟩
      · simp only [State.goOn, taken]
        omega
      · simp only [State.goOn, taken] at hended
        omega
    | nil =>
      cases nones with
      | zero => cases hqueue
      | succ nones =>
        obtain ⟨rfl, hrest⟩ := List.cons.inj hqueue
        simp only [taken, List.count_singleton] at hcount
        have hmore : (s.workers.set i .ended).count .ended = s.workers.count .ended + 1 := by
          simpa using hcount
        refine ⟨⟨[], nones, hrest, ?_, fun _ => rfl⟩, hset, by simp only [State.goOn]; omega⟩
        simp only [State.goOn, taken]
        omega
  | @settled i due ok hi => exact ordered_goOn hs hi (by simp) (by cases ok <;> simp) _ _
  | answered hi => exact ordered_goOn hs hi (by simp) (by simp) _ _
  | failed hi => exact ordered_goOn hs hi (by simp) (by simp) _ _

/-- The workers are joined. -/
def Finished (s : State) : Prop := s.producer = .stopping 0 ∧ ∀ w ∈ s.workers, w = .ended

/-- A thread can take a step. -/
def CanGo (args : Args) (s : State) : Prop := ∃ e, (step args s e).isSome = true

/-- When the workers are done, nothing is left in the queue or with a worker. -/
theorem Placed.of_finished (hs : Placed s) (hordered : Ordered args s)
    (hconnections : 0 < args.connections) (hfinished : Finished s) :
    s.dispatched.Perm (s.latencies ++ s.errors) := by
  obtain ⟨dues, nones, hqueue, hsum, hends⟩ := hordered.queue
  have hended : s.workers.count .ended = args.connections := by
    rw [← hordered.workers]
    exact List.count_eq_length.2 fun w hw => (hfinished.2 w hw).symm
  have hheld : s.held = [] := List.filterMap_eq_nil_iff.2 fun w hw => by rw [hfinished.2 w hw]; rfl
  have hqueued : s.queued = [] := by
    rw [State.queued, hqueue, hends (by omega)]
    simp [List.filterMap_replicate_of_none]
  refine List.perm_iff_count.2 fun d => ?_
  rw [hs.places d, hheld, hqueued, List.count_append]
  simp

/-- **No deadlock.** -/
theorem canGo_of_ordered (hs : Ordered args s) (hproducer : s.producer ≠ .dispatching)
    (hfinished : ¬Finished s) : CanGo args s := by
  obtain ⟨dues, nones, hqueue, hsum, hends⟩ := hs.queue
  by_cases hbusy : ∃ (i : ℕ) (w : Worker), s.workers[i]? = some w ∧ w ≠ .waiting ∧ w ≠ .ended
  · obtain ⟨i, w, hi, hwaiting, hended⟩ := hbusy
    cases w with
    | waiting => exact absurd rfl hwaiting
    | requesting due => exact ⟨.settle i true, by simp [step, hi]⟩
    | answered due => exact ⟨.record i, by simp [step, hi]⟩
    | failed due => exact ⟨.record i, by simp [step, hi]⟩
    | ended => exact absurd rfl hended
  have hidle : ∀ w ∈ s.workers, w = .waiting ∨ w = .ended := by
    intro w hw
    obtain ⟨i, hi⟩ := List.mem_iff_getElem?.1 hw
    by_contra hother
    exact hbusy ⟨i, w, hi, fun h => hother (.inl h), fun h => hother (.inr h)⟩
  cases hleft : s.producer with
  | dispatching => exact absurd hleft hproducer
  | stopping left =>
    rw [hleft, Producer.left] at hsum
    by_cases hwaiting : .waiting ∈ s.workers
    · obtain ⟨i, hi⟩ := List.mem_iff_getElem?.1 hwaiting
      cases hitems : s.queue with
      | cons item queue => exact ⟨.get i, by simp [step, hi, hitems]⟩
      | nil =>
        -- the queue is empty, so a `None` is left to be put for the worker that waits
        cases left with
        | succ left => exact ⟨.putNone, by simp [step, hleft, hitems, args.rate_pos]⟩
        | zero =>
          have hnones : nones = 0 := by
            have hlength := congrArg List.length (hitems.symm.trans hqueue)
            simp only [List.length_nil, List.length_append, List.length_map,
              List.length_replicate] at hlength
            omega
          have hall : s.workers.count .ended = s.workers.length := by
            rw [hs.workers]
            omega
          exact nomatch List.count_eq_length.1 hall _ hwaiting
    · have hall : ∀ w ∈ s.workers, w = .ended := fun w hw =>
        (hidle w hw).resolve_left fun h => hwaiting (h ▸ hw)
      have hended : s.workers.count .ended = args.connections := by
        rw [← hs.workers]
        exact List.count_eq_length.2 fun w hw => (hall w hw).symm
      obtain rfl : left = 0 := by omega
      exact absurd ⟨hleft, hall⟩ hfinished

/-- How many steps a worker can take before it needs another item. -/
def Worker.rank : Worker → ℕ
  | requesting _ => 3
  | answered _ | failed _ => 2
  | waiting => 1
  | ended => 0

/-- How many steps the threads can take at most when no more requests are due. -/
def State.rank (args : Args) (s : State) : ℕ :=
  4 * s.producer.left args + 3 * s.queue.length + (s.workers.map Worker.rank).sum

@[simp] theorem rank_waiting : Worker.waiting.rank = 1 := rfl

@[simp] theorem rank_requesting (due : ℕ) : (Worker.requesting due).rank = 3 := rfl

@[simp] theorem rank_settled (due : ℕ) (ok : Bool) :
    (if ok then Worker.answered due else .failed due).rank = 2 := by cases ok <;> rfl

theorem rank_taken_le (item : Option ℕ) : (taken item).rank ≤ 3 := by
  cases item with
  | none => exact Nat.zero_le _
  | some due => exact Nat.le_refl _

theorem sum_rank_set {i : ℕ} {w : Worker} (hi : s.workers[i]? = some w) (w' : Worker) :
    ((s.workers.set i w').map Worker.rank).sum + w.rank =
      (s.workers.map Worker.rank).sum + w'.rank := by
  rw [((set_perm hi w').map _).sum_eq, ((workers_perm hi).map _).sum_eq, List.map_cons,
    List.map_cons, List.sum_cons, List.sum_cons]
  omega

theorem rank_step (hproducer : s.producer ≠ .dispatching) (h : step args s e = some s') :
    s'.producer ≠ .dispatching ∧ s'.rank args < s.rank args := by
  cases happens_of_step h with
  | queued hdispatching | dropped hdispatching | finished hdispatching =>
    exact absurd hdispatching hproducer
  | put hleft hroom =>
    refine ⟨nofun, ?_⟩
    simp only [State.rank, hleft, Producer.left, List.length_append, List.length_singleton]
    omega
  | @got i item queue hi hitem =>
    have hsum := sum_rank_set hi (taken item)
    have hle := rank_taken_le item
    refine ⟨hproducer, ?_⟩
    simp only [State.rank, State.goOn, hitem, List.length_cons, rank_waiting] at hsum ⊢
    omega
  | @settled i due ok hi =>
    have hsum := sum_rank_set hi (if ok then .answered due else .failed due)
    refine ⟨hproducer, ?_⟩
    simp only [State.rank, State.goOn, rank_settled, rank_requesting] at hsum ⊢
    omega
  | @answered i due hi =>
    have hsum := sum_rank_set hi .waiting
    have hrank : (Worker.answered due).rank = 2 := rfl
    refine ⟨hproducer, ?_⟩
    simp only [State.rank, State.goOn, rank_waiting] at hsum ⊢
    omega
  | @failed i due hi =>
    have hsum := sum_rank_set hi .waiting
    have hrank : (Worker.failed due).rank = 2 := rfl
    refine ⟨hproducer, ?_⟩
    simp only [State.rank, State.goOn, rank_waiting] at hsum ⊢
    omega

theorem rank_run {later : List Event} (hproducer : s.producer ≠ .dispatching)
    (h : Transition.run (step args) s later = some s') :
    s'.producer ≠ .dispatching ∧ later.length + s'.rank args ≤ s.rank args := by
  refine Transition.run_history (P := fun done t =>
    t.producer ≠ .dispatching ∧ done.length + t.rank args ≤ s.rank args) ⟨hproducer, by simp⟩ ?_ h
  intro done t e t' _ hstep hbefore
  obtain ⟨hproducer', hrank⟩ := rank_step hbefore.1 hstep
  have := hbefore.2
  refine ⟨hproducer', ?_⟩
  rw [List.length_append, List.length_singleton]
  omega

theorem Ordered.rank_le (hs : Ordered args s) : s.rank args ≤ 7 * args.connections + 6 * args.rate := by
  obtain ⟨dues, nones, hqueue, hsum, hends⟩ := hs.queue
  have hroom := hs.room
  have hworkers : (s.workers.map Worker.rank).sum ≤ s.workers.length * 3 := by
    refine (List.sum_le_card_nsmul _ 3 fun n hn => ?_).trans_eq (by simp)
    obtain ⟨w, -, rfl⟩ := List.mem_map.1 hn
    cases w <;> simp [Worker.rank]
  rw [hs.workers] at hworkers
  unfold State.rank
  omega

/-- **The threads end, and every request is recorded.**  When the duration is over, the threads take
at most so many more steps; as long as they are not done one of them can go on; and when they are
done, the answers and the errors together are those of all requests that were dispatched, each
once. -/
theorem all_recorded (hconnections : 0 < args.connections) {later : List Event}
    (h : Transition.run (step args) (init args) es = some s) (hover : s.producer ≠ .dispatching)
    (hlater : Transition.run (step args) s later = some s') :
    later.length ≤ 7 * args.connections + 6 * args.rate ∧
      (CanGo args s' ∨ Finished s' ∧ s'.dispatched.Perm (s'.latencies ++ s'.errors)) := by
  have hordered : Ordered args s :=
    Transition.run_preserves_all (fun _ _ _ => ordered_step) h ordered_init
  have hordered' : Ordered args s' :=
    Transition.run_preserves_all (fun _ _ _ => ordered_step) hlater hordered
  have hplaced' : Placed s' :=
    Transition.run_preserves_all (fun _ _ _ => placed_step) hlater (placed_run h)
  obtain ⟨hover', hrank⟩ := rank_run hover hlater
  have hle := hordered.rank_le
  refine ⟨by omega, ?_⟩
  by_cases hfinished : Finished s'
  · exact .inr ⟨hfinished, hplaced'.of_finished hordered' hconnections hfinished⟩
  · exact .inl (canGo_of_ordered hordered' hover' hfinished)

/-- Two workers, and room for two requests. -/
def twoWorkers : Args := ⟨1, 2, Nat.one_pos⟩

/-- Of four requests one is dropped because the queue is full; then one is answered and one fails. -/
def fourDue : List Event :=
  [.due, .due, .due, .get 0, .get 1, .due, .settle 1 true, .record 1, .settle 0 false, .finish]

/-- The workers record the failure, take the last request, and end. -/
def allEnd : List Event :=
  [.record 0, .get 1, .putNone, .settle 1 true, .record 1, .putNone, .get 0, .get 1]

theorem each_once_fourDue : ∃ s, Transition.run (step twoWorkers) (init twoWorkers) fourDue = some s ∧
    s.dispatched = [0, 1, 3] ∧ s.dispatched.Nodup ∧
    s.dispatched.Perm (s.latencies ++ s.errors ++ s.held ++ s.queued) := by
  have hrun : Transition.run (step twoWorkers) (init twoWorkers) fourDue = some _ := rfl
  exact ⟨_, hrun, rfl, each_once hrun⟩

theorem all_recorded_fourDue : ∃ s s', Transition.run (step twoWorkers) (init twoWorkers) fourDue =
      some s ∧ Transition.run (step twoWorkers) s allEnd = some s' ∧ Finished s' ∧
    allEnd.length ≤ 7 * twoWorkers.connections + 6 * twoWorkers.rate ∧
      (CanGo twoWorkers s' ∨ Finished s' ∧ s'.dispatched.Perm (s'.latencies ++ s'.errors)) := by
  have hrun : Transition.run (step twoWorkers) (init twoWorkers) fourDue = some _ := rfl
  exact ⟨_, _, hrun, rfl, ⟨rfl, by decide⟩, all_recorded Nat.two_pos hrun nofun rfl⟩

end Ends

end LoadGen

end Phase7
