import K8Labs.Transition
import Mathlib.Data.List.Infix
import Mathlib.Tactic.SplitIfs

/-!
# The server of the incidents

`httpd.c` of phase 7, on one connection: it reads until a blank line, sends a fixed answer, and reads
again.  The bytes of both directions may be cut anywhere, and a client may go away or a call fail at
any time.  The client sends a request, waits for the whole answer, and goes on.

* `in_step` : **every answer is whole**, whatever is sent and wherever the bytes are cut, there is at
  most one for each request, and the buffer is never overrun.
* `always_answered` : as long as nothing fails, **no request is left without its answer**.

What a read brings behind the blank line is thrown away, so the second needs requests that end there.
-/

namespace Phase7

namespace Httpd

/-! ### The server -/

abbrev Bytes := List UInt8

/-- `MAX_REQUEST`. -/
def maxRequest : ℕ := 8192

/-- `MAX_BODY`. -/
def maxBody : ℕ := 65536

/-- The argument that is not refused. -/
structure Args where
  bodyLen : ℕ
  body_pos : 0 < bodyLen
  body_le : bodyLen ≤ maxBody

/-- The bytes of a text in ASCII. -/
def ascii (text : String) : Bytes := text.toList.map fun c => c.val.toUInt8

/-- `body`. -/
def Args.body (args : Args) : Bytes := List.replicate (args.bodyLen - 1) 120 ++ [10]

/-- `header`. -/
def Args.header (args : Args) : Bytes :=
  ascii ("HTTP/1.1 200 OK\r\nContent-Type: text/plain\r\nContent-Length: " ++ toString args.bodyLen ++
    "\r\nConnection: keep-alive\r\n\r\n")

/-- What is sent for a request. -/
def Args.answer (args : Args) : Bytes := args.header ++ args.body

/-- `strstr(buffer, sub)`: the text ends at the first zero. -/
def strstr (buffer sub : Bytes) : Bool := (buffer.takeWhile (· ≠ 0)).tails.any (sub.isPrefixOf ·)

/-- A blank line has come. -/
def ended (buffer : Bytes) : Bool := strstr buffer [13, 10, 13, 10] || strstr buffer [10, 10]

/-- Where `serve` is. -/
inductive Server where
  /-- In `read_request`, with these bytes in the buffer. -/
  | reading (buffer : Bytes)
  /-- In the first `send_all`, with these bytes to be sent. -/
  | header (rest : Bytes)
  /-- In the second `send_all`. -/
  | body (rest : Bytes)
  | closed
  deriving DecidableEq

/-- The client: it waits for the answer to its request, and has got some bytes of it. -/
inductive Client where
  | idle
  | waiting (request got : Bytes)
  | gone
  deriving DecidableEq

/-- The two ends of a connection, the bytes between them, the requests and the whole answers. -/
structure State where
  up : Bytes
  down : Bytes
  client : Client
  server : Server
  requests : List Bytes
  answers : List Bytes

/-- A connection that has just been made. -/
def State.fresh : State := ⟨[], [], .idle, .reading [], [], []⟩

/-- `read_request` behind a read: it returns 1, reads on, or returns -1. -/
def afterRead (args : Args) (buffer : Bytes) : Server :=
  if ended buffer then .header args.header
  else if buffer.length < maxRequest - 1 then .reading buffer
  else .closed

/-- `serve` behind a write. -/
def afterHeader (args : Args) (rest : Bytes) : Server :=
  if rest = [] then .body args.body else .header rest

/-- `serve` behind a write of the second `send_all`. -/
def afterBody (rest : Bytes) : Server := if rest = [] then .reading [] else .body rest

/-- What can happen next.  Calls that are interrupted change nothing. -/
inductive Event where
  | request (request : Bytes)
  /-- A read of the server returns so many bytes; none of them say that the client is gone. -/
  | read (n : ℕ)
  | write (n : ℕ)
  /-- The client gets so many bytes. -/
  | receive (n : ℕ)
  /-- A call of the server fails. -/
  | fail
  | hangUp
  deriving DecidableEq

/-- The state after an event, if it can happen. -/
def step (args : Args) (s : State) : Event → Option State
  | .request request =>
    if s.client = .idle then
      some
        { s with
          up := s.up ++ request
          client := .waiting request []
          requests := s.requests ++ [request] }
    else none
  | .read n =>
    match s.server with
    | .reading buffer =>
      if 0 < n ∧ n ≤ s.up.length ∧ buffer.length + n ≤ maxRequest - 1 then
        some { s with up := s.up.drop n, server := afterRead args (buffer ++ s.up.take n) }
      else if n = 0 ∧ s.up = [] ∧ s.client = .gone then
        some { s with server := if buffer = [] then .closed else .header args.header }
      else none
    | _ => none
  | .write n =>
    match s.server with
    | .header rest =>
      if 0 < n ∧ n ≤ rest.length then
        some { s with down := s.down ++ rest.take n, server := afterHeader args (rest.drop n) }
      else none
    | .body rest =>
      if 0 < n ∧ n ≤ rest.length then
        some { s with down := s.down ++ rest.take n, server := afterBody (rest.drop n) }
      else none
    | _ => none
  | .receive n =>
    match s.client with
    | .waiting request got =>
      if 0 < n ∧ n ≤ s.down.length ∧ got.length + n ≤ args.answer.length then
        if got.length + n = args.answer.length then
          some
            { s with
              down := s.down.drop n
              client := .idle
              answers := s.answers ++ [got ++ s.down.take n] }
        else
          some { s with down := s.down.drop n, client := .waiting request (got ++ s.down.take n) }
      else none
    | _ => none
  | .fail => if s.server = .closed then none else some { s with server := .closed }
  | .hangUp => some { s with client := .gone }

/-! ### Requests -/

/-- A request that the server can take: its only blank line is at its end, it has no zero in it, and
it fits into the buffer. -/
structure Framed (request : Bytes) : Prop where
  fits : request.length ≤ maxRequest - 1
  ends : ended request = true
  first : ∀ p, p <+: request → ended p = true → p = request

/-- What happens is not a request that the server cannot take. -/
def Event.framed : Event → Prop
  | request bytes => Framed bytes
  | _ => True

/-- Neither end gives up. -/
def Event.lasting : Event → Bool
  | fail | hangUp => false
  | _ => true

section Steps

variable {args : Args} {s s' : State} {e : Event}

/-- What an event does, one case for each kind of step. -/
inductive Happens (args : Args) (s : State) : Event → State → Prop
  | asked {request : Bytes} (hclient : s.client = .idle) :
      Happens args s (.request request)
        { s with
          up := s.up ++ request
          client := .waiting request []
          requests := s.requests ++ [request] }
  | read {n : ℕ} {buffer : Bytes} (hserver : s.server = .reading buffer) (hpos : 0 < n)
      (hup : n ≤ s.up.length) (hroom : buffer.length + n ≤ maxRequest - 1) :
      Happens args s (.read n)
        { s with up := s.up.drop n, server := afterRead args (buffer ++ s.up.take n) }
  | eof {buffer : Bytes} (hserver : s.server = .reading buffer) (hup : s.up = [])
      (hclient : s.client = .gone) :
      Happens args s (.read 0)
        { s with server := if buffer = [] then .closed else .header args.header }
  | wroteHeader {n : ℕ} {rest : Bytes} (hserver : s.server = .header rest) (hpos : 0 < n)
      (hrest : n ≤ rest.length) :
      Happens args s (.write n)
        { s with down := s.down ++ rest.take n, server := afterHeader args (rest.drop n) }
  | wroteBody {n : ℕ} {rest : Bytes} (hserver : s.server = .body rest) (hpos : 0 < n)
      (hrest : n ≤ rest.length) :
      Happens args s (.write n)
        { s with down := s.down ++ rest.take n, server := afterBody (rest.drop n) }
  | answered {n : ℕ} {request got : Bytes} (hclient : s.client = .waiting request got) (hpos : 0 < n)
      (hdown : n ≤ s.down.length) (hwhole : got.length + n = args.answer.length) :
      Happens args s (.receive n)
        { s with
          down := s.down.drop n
          client := .idle
          answers := s.answers ++ [got ++ s.down.take n] }
  | received {n : ℕ} {request got : Bytes} (hclient : s.client = .waiting request got) (hpos : 0 < n)
      (hdown : n ≤ s.down.length) (hmore : got.length + n < args.answer.length) :
      Happens args s (.receive n)
        { s with down := s.down.drop n, client := .waiting request (got ++ s.down.take n) }
  | failed (hserver : s.server ≠ .closed) : Happens args s .fail { s with server := .closed }
  | left : Happens args s .hangUp { s with client := .gone }

theorem happens_of_step (h : step args s e = some s') : Happens args s e s' := by
  cases e with
  | request request =>
    simp only [step] at h
    split_ifs at h with hclient
    cases h
    exact .asked hclient
  | read n =>
    simp only [step] at h
    split at h
    · rename_i buffer hserver
      by_cases hread : 0 < n ∧ n ≤ s.up.length ∧ buffer.length + n ≤ maxRequest - 1
      · rw [if_pos hread] at h
        cases h
        exact .read hserver hread.1 hread.2.1 hread.2.2
      · rw [if_neg hread] at h
        by_cases heof : n = 0 ∧ s.up = [] ∧ s.client = .gone
        · rw [if_pos heof] at h
          cases h
          obtain ⟨rfl, hup, hclient⟩ := heof
          exact .eof hserver hup hclient
        · rw [if_neg heof] at h
          cases h
    · cases h
  | write n =>
    simp only [step] at h
    split at h
    · split_ifs at h with hwrite
      cases h
      exact .wroteHeader ‹_› hwrite.1 hwrite.2
    · split_ifs at h with hwrite
      cases h
      exact .wroteBody ‹_› hwrite.1 hwrite.2
    · cases h
  | receive n =>
    simp only [step] at h
    split at h
    · split_ifs at h with hreceive hwhole
      · cases h
        exact .answered ‹_› hreceive.1 hreceive.2.1 hwhole
      · cases h
        exact .received ‹_› hreceive.1 hreceive.2.1 (Nat.lt_of_le_of_ne hreceive.2.2 hwhole)
    · cases h
  | fail =>
    simp only [step] at h
    split_ifs at h with hserver
    cases h
    exact .failed hserver
  | hangUp =>
    cases h
    exact .left

end Steps

/-! ### Every answer is whole -/

section Whole

variable {args : Args} {s s' : State} {e : Event} {es : List Event} {got : Bytes}

theorem body_ne_nil (args : Args) : args.body ≠ [] := by
  rw [Args.body]
  exact List.append_ne_nil_of_right_ne_nil _ (List.cons_ne_nil _ _)

theorem header_ne_nil (args : Args) : args.header ≠ [] := by
  rw [Args.header, ascii]
  simp

theorem answer_pos (args : Args) : 0 < args.answer.length :=
  List.length_pos_iff.2 (List.append_ne_nil_of_right_ne_nil _ (body_ne_nil args))

/-- The server has these bytes of an answer before it.  When it has closed, they never come. -/
def Server.Owes (args : Args) (rest : Bytes) : Server → Prop
  | reading _ => rest = []
  | header unsent => rest = unsent ++ args.body
  | body unsent => rest = unsent
  | closed => True

/-- Behind what the client has got the answers go on, one after the other. -/
def Aligned (args : Args) (got : Bytes) (s : State) : Prop :=
  ∃ n rest, s.server.Owes args rest ∧ got ++ s.down ++ rest = (List.replicate n args.answer).flatten

/-- What holds of a connection, whatever is sent and whatever fails. -/
structure Whole (args : Args) (s : State) : Prop where
  bound : ∀ buffer, s.server = .reading buffer → buffer.length < maxRequest - 1
  answers : ∀ a ∈ s.answers, a = args.answer
  idle : s.client = .idle → s.requests.length = s.answers.length ∧ Aligned args [] s
  waiting : ∀ request got, s.client = .waiting request got → got.length < args.answer.length ∧
    s.requests.length = s.answers.length + 1 ∧ Aligned args got s
  counts : s.answers.length ≤ s.requests.length ∧ s.requests.length ≤ s.answers.length + 1

theorem whole_fresh : Whole args .fresh where
  bound _ h := by
    cases h
    decide
  answers := nofun
  idle _ := ⟨rfl, 0, [], rfl, rfl⟩
  waiting := nofun
  counts := ⟨Nat.le_refl _, Nat.le_succ _⟩

theorem afterRead_bound {text buffer : Bytes} (h : afterRead args text = .reading buffer) :
    buffer.length < maxRequest - 1 := by
  unfold afterRead at h
  split_ifs at h
  cases h
  assumption

/-- A blank line begins a new answer. -/
theorem Aligned.read {n : ℕ} {buffer : Bytes} (h : Aligned args got s)
    (hserver : s.server = .reading buffer) : Aligned args got
      { s with up := s.up.drop n, server := afterRead args (buffer ++ s.up.take n) } := by
  obtain ⟨count, rest, howes, hsum⟩ := h
  rw [hserver] at howes
  obtain rfl : rest = [] := howes
  unfold Aligned afterRead
  split_ifs
  · refine ⟨count + 1, args.answer, rfl, ?_⟩
    rw [List.replicate_succ', List.flatten_concat, ← hsum, List.append_nil]
  · exact ⟨count, [], rfl, hsum⟩
  · exact ⟨count, [], trivial, hsum⟩

theorem Aligned.wroteHeader {n : ℕ} {rest : Bytes} (h : Aligned args got s)
    (hserver : s.server = .header rest) : Aligned args got
      { s with down := s.down ++ rest.take n, server := afterHeader args (rest.drop n) } := by
  obtain ⟨count, owed, howes, hsum⟩ := h
  rw [hserver] at howes
  obtain rfl : owed = rest ++ args.body := howes
  have hcut : got ++ (s.down ++ rest.take n) ++ (rest.drop n ++ args.body) =
      got ++ s.down ++ (rest ++ args.body) := by
    rw [← List.append_assoc got, List.append_assoc (got ++ s.down), ← List.append_assoc (rest.take n),
      List.take_append_drop]
  refine ⟨count, rest.drop n ++ args.body, ?_, hcut.trans hsum⟩
  unfold afterHeader
  split_ifs with hnil
  · rw [hnil]
    rfl
  · rfl

theorem Aligned.wroteBody {n : ℕ} {rest : Bytes} (h : Aligned args got s)
    (hserver : s.server = .body rest) : Aligned args got
      { s with down := s.down ++ rest.take n, server := afterBody (rest.drop n) } := by
  obtain ⟨count, owed, howes, hsum⟩ := h
  rw [hserver] at howes
  obtain rfl : owed = rest := howes
  have hcut : got ++ (s.down ++ owed.take n) ++ owed.drop n = got ++ s.down ++ owed := by
    rw [← List.append_assoc got, List.append_assoc (got ++ s.down), List.take_append_drop]
  refine ⟨count, owed.drop n, ?_, hcut.trans hsum⟩
  unfold afterBody
  split_ifs with hnil
  · exact hnil
  · rfl

/-- The bytes that the client gets do not change what is still to come. -/
theorem Aligned.received {n : ℕ} (h : Aligned args got s) :
    Aligned args (got ++ s.down.take n) { s with down := s.down.drop n } := by
  obtain ⟨count, rest, howes, hsum⟩ := h
  refine ⟨count, rest, howes, ?_⟩
  rw [← hsum, List.append_assoc got, List.take_append_drop]

/-- As many bytes as an answer has are the answer, and the next one begins behind them. -/
theorem Aligned.answered (h : Aligned args got s) (hwhole : got.length = args.answer.length) :
    got = args.answer ∧ Aligned args [] s := by
  obtain ⟨count, rest, howes, hsum⟩ := h
  cases count with
  | zero =>
    have hnil : got = [] := (List.append_eq_nil_iff.1 (List.append_eq_nil_iff.1 hsum).1).1
    rw [hnil, List.length_nil] at hwhole
    exact absurd hwhole (answer_pos args).ne
  | succ count =>
    rw [List.replicate_succ, List.flatten_cons, List.append_assoc] at hsum
    obtain ⟨hgot, hrest⟩ := List.append_inj hsum hwhole
    exact ⟨hgot, count, rest, howes, hrest⟩

theorem Aligned.closed (h : Aligned args got s) : Aligned args got { s with server := .closed } := by
  obtain ⟨count, rest, -, hsum⟩ := h
  exact ⟨count, rest, trivial, hsum⟩

theorem whole_step (h : step args s e = some s') (hs : Whole args s) : Whole args s' := by
  obtain ⟨hbound, hanswers, hidle, hwaiting, hcounts⟩ := hs
  cases happens_of_step h with
  | @asked asked hclient =>
    obtain ⟨hlength, haligned⟩ := hidle hclient
    refine ⟨hbound, hanswers, nofun, fun request got hnew => ?_, by simp [hlength]⟩
    cases hnew
    exact ⟨answer_pos args, by simp [hlength], haligned⟩
  | @read n buffer hserver hpos hup hroom =>
    exact ⟨fun _ => afterRead_bound, hanswers, fun hclient => (hidle hclient).imp_right (·.read hserver),
      fun request got hclient => (hwaiting request got hclient).imp_right (.imp_right (·.read hserver)),
      hcounts⟩
  | @eof buffer hserver hup hclient =>
    refine ⟨fun buffer' hnew => ?_, hanswers, fun hidle => ?_, fun request got hwaits => ?_, hcounts⟩
    · dsimp only at hnew
      split_ifs at hnew
    · rw [hclient] at hidle
      cases hidle
    · rw [hclient] at hwaits
      cases hwaits
  | @wroteHeader n rest hserver hpos hrest =>
    refine ⟨fun buffer hnew => ?_, hanswers,
      fun hclient => (hidle hclient).imp_right (·.wroteHeader hserver), fun request got hclient =>
        (hwaiting request got hclient).imp_right (.imp_right (·.wroteHeader hserver)), hcounts⟩
    simp only [afterHeader] at hnew
    split_ifs at hnew
  | @wroteBody n rest hserver hpos hrest =>
    refine ⟨fun buffer hnew => ?_, hanswers,
      fun hclient => (hidle hclient).imp_right (·.wroteBody hserver), fun request got hclient =>
        (hwaiting request got hclient).imp_right (.imp_right (·.wroteBody hserver)), hcounts⟩
    simp only [afterBody] at hnew
    split_ifs at hnew
    cases hnew
    decide
  | @answered n request got hclient hpos hdown hwhole =>
    obtain ⟨-, hcount, haligned⟩ := hwaiting request got hclient
    obtain ⟨hall, haligned⟩ := haligned.received.answered
      (by rw [List.length_append, List.length_take, Nat.min_eq_left hdown, hwhole])
    refine ⟨hbound, fun a ha => ?_, fun _ => ⟨by simp [hcount], haligned⟩, nofun, by simp [hcount]⟩
    rcases List.mem_append.1 ha with ha | ha
    · exact hanswers a ha
    · rw [List.mem_singleton.1 ha, hall]
  | @received n request got hclient hpos hdown hmore =>
    obtain ⟨-, hcount, haligned⟩ := hwaiting request got hclient
    refine ⟨hbound, hanswers, nofun, fun request' got' hnew => ?_, hcounts⟩
    cases hnew
    refine ⟨?_, hcount, haligned.received⟩
    rwa [List.length_append, List.length_take, Nat.min_eq_left hdown]
  | failed hserver =>
    exact ⟨nofun, hanswers, fun hclient => (hidle hclient).imp_right (·.closed), fun request got hclient =>
      (hwaiting request got hclient).imp_right (.imp_right (·.closed)), hcounts⟩
  | left => exact ⟨hbound, hanswers, nofun, nofun, hcounts⟩

/-- **Every answer is whole.**  Whatever the client sends, wherever the bytes are cut and whatever
fails, the client gets nothing but whole answers, one for each request up to the last, and the server
never has more than `MAX_REQUEST - 1` bytes in its buffer. -/
theorem in_step (h : Transition.run (step args) .fresh es = some s) :
    (∀ a ∈ s.answers, a = args.answer) ∧ s.answers.length ≤ s.requests.length ∧
      s.requests.length ≤ s.answers.length + 1 ∧
      ∀ buffer, s.server = .reading buffer → buffer.length < maxRequest - 1 := by
  have hs : Whole args s := Transition.run_preserves_all (fun _ _ _ => whole_step) h whole_fresh
  exact ⟨hs.answers, hs.counts.1, hs.counts.2, hs.bound⟩

/-- The smallest answer. -/
def smallest : Args := ⟨1, Nat.one_pos, by decide⟩

/-- A request. -/
def get : Bytes := ascii "GET / HTTP/1.1\r\nHost: a\r\n\r\n"

/-- Two requests sent as one: the second answer comes when the client has asked again, and the server
fails within it. -/
def askedTwice : List Event :=
  [.request (get ++ get), .read 27, .write 88, .write 1, .read 9, .read 18, .write 50, .receive 40,
    .receive 49, .request get, .write 38, .receive 60, .fail]

theorem in_step_askedTwice : ∃ s, Transition.run (step smallest) .fresh askedTwice = some s ∧
    (∀ a ∈ s.answers, a = smallest.answer) ∧ s.answers.length ≤ s.requests.length ∧
      s.requests.length ≤ s.answers.length + 1 ∧
      ∀ buffer, s.server = .reading buffer → buffer.length < maxRequest - 1 := by
  have hrun : (Transition.run (step smallest) .fresh askedTwice).isSome = true := by decide +kernel
  obtain ⟨s, hs⟩ := Option.isSome_iff_exists.1 hrun
  exact ⟨s, hs, in_step hs⟩

end Whole

/-! ### The two ends are in step -/

section InStep

variable {args : Args} {s s' : State} {e : Event} {es : List Event} {request got : Bytes}

/-- How far the answer to a request has come when the client has got some bytes of it. -/
def Pending (args : Args) (request got : Bytes) (s : State) : Prop :=
  match s.server with
  | .reading buffer => got = [] ∧ s.down = [] ∧ buffer ++ s.up = request ∧ s.up ≠ [] ∨
      buffer = [] ∧ s.up = [] ∧ got ++ s.down = args.answer
  | .header rest => s.up = [] ∧ rest ≠ [] ∧ got ++ s.down ++ (rest ++ args.body) = args.answer
  | .body rest => s.up = [] ∧ rest ≠ [] ∧ got ++ s.down ++ rest = args.answer
  | .closed => (s.up = [] ∨ got ++ s.down = []) ∧ got ++ s.down <+: args.answer

/-- What holds of a connection besides, when the server can take every request. -/
structure InStep (args : Args) (s : State) : Prop where
  idle : s.client = .idle →
    s.up = [] ∧ s.down = [] ∧ (s.server = .reading [] ∨ s.server = .closed)
  waiting : ∀ request got, s.client = .waiting request got →
    Framed request ∧ Pending args request got s

theorem ended_nil : ended [] = false := by decide

theorem Framed.ne_nil (h : Framed request) : request ≠ [] := by
  intro hnil
  have := h.ends
  rw [hnil, ended_nil] at this
  cases this

theorem inStep_fresh : InStep args .fresh := ⟨fun _ => ⟨rfl, rfl, .inl rfl⟩, nofun⟩

/-- A read brings the whole request, or a part of it. -/
theorem afterRead_cases (args : Args) {text rest : Bytes} (hframed : Framed request)
    (hwhole : text ++ rest = request) :
    rest = [] ∧ afterRead args text = .header args.header ∨
      rest ≠ [] ∧ afterRead args text = .reading text := by
  unfold afterRead
  by_cases hends : ended text = true
  · have hall := hframed.first _ ⟨_, hwhole⟩ hends
    exact .inl ⟨by simpa [hall] using hwhole, if_pos hends⟩
  · have hrest : rest ≠ [] := by
      intro hrest
      rw [hrest, List.append_nil] at hwhole
      exact hends (hwhole ▸ hframed.ends)
    have hlt : text.length < maxRequest - 1 := by
      have hlength := congrArg List.length hwhole
      have := List.length_pos_iff.2 hrest
      have := hframed.fits
      rw [List.length_append] at hlength
      omega
    exact .inr ⟨hrest, by rw [if_neg hends, if_pos hlt]⟩

theorem Pending.read {n : ℕ} {buffer : Bytes} (hframed : Framed request)
    (h : Pending args request got s) (hserver : s.server = .reading buffer) (hpos : 0 < n)
    (hup : n ≤ s.up.length) : afterRead args (buffer ++ s.up.take n) ≠ .closed ∧
      Pending args request got
        { s with up := s.up.drop n, server := afterRead args (buffer ++ s.up.take n) } := by
  rw [Pending, hserver] at h
  rcases h with ⟨hgot, hdown, hrequest, hmore⟩ | ⟨-, hnone, -⟩
  · have hwhole : buffer ++ s.up.take n ++ s.up.drop n = request := by
      rw [List.append_assoc, List.take_append_drop, hrequest]
    unfold Pending
    rcases afterRead_cases args hframed hwhole with ⟨hrest, hnext⟩ | ⟨hrest, hnext⟩
    · rw [hnext]
      exact ⟨nofun, hrest, header_ne_nil args, by rw [hgot, hdown]; rfl⟩
    · rw [hnext]
      exact ⟨nofun, .inl ⟨hgot, hdown, hwhole, hrest⟩⟩
  · rw [hnone] at hup
    exact absurd hpos (Nat.not_lt.2 hup)

theorem Pending.wroteHeader {n : ℕ} {rest : Bytes} (h : Pending args request got s)
    (hserver : s.server = .header rest) : Pending args request got
      { s with down := s.down ++ rest.take n, server := afterHeader args (rest.drop n) } := by
  rw [Pending, hserver] at h
  obtain ⟨hup, -, hsum⟩ := h
  unfold Pending afterHeader
  by_cases hrest : rest.drop n = []
  · have htake : rest.take n = rest := by simpa [hrest] using List.take_append_drop n rest
    rw [if_pos hrest]
    exact ⟨hup, body_ne_nil args, by rw [htake, ← hsum]; simp⟩
  · rw [if_neg hrest]
    refine ⟨hup, hrest, ?_⟩
    rw [← hsum, ← List.append_assoc got, List.append_assoc (got ++ s.down),
      ← List.append_assoc (rest.take n), List.take_append_drop]

theorem Pending.wroteBody {n : ℕ} {rest : Bytes} (h : Pending args request got s)
    (hserver : s.server = .body rest) : Pending args request got
      { s with down := s.down ++ rest.take n, server := afterBody (rest.drop n) } := by
  rw [Pending, hserver] at h
  obtain ⟨hup, -, hsum⟩ := h
  unfold Pending afterBody
  by_cases hrest : rest.drop n = []
  · have htake : rest.take n = rest := by simpa [hrest] using List.take_append_drop n rest
    rw [if_pos hrest]
    exact .inr ⟨rfl, hup, by rw [htake, ← hsum]; simp⟩
  · rw [if_neg hrest]
    refine ⟨hup, hrest, ?_⟩
    rw [← hsum, ← List.append_assoc got, List.append_assoc _ (rest.take n), List.take_append_drop]

/-- The bytes that the client gets do not change what is still to come. -/
theorem Pending.received {n : ℕ} (h : Pending args request got s) (hdown : n ≤ s.down.length)
    (hpos : 0 < n) :
    Pending args request (got ++ s.down.take n) { s with down := s.down.drop n } := by
  have hsame : got ++ s.down.take n ++ s.down.drop n = got ++ s.down := by
    rw [List.append_assoc, List.take_append_drop]
  unfold Pending at h ⊢
  cases hserver : s.server with
  | reading buffer =>
    rw [hserver] at h
    rcases h with ⟨-, hnone, -⟩ | ⟨hbuffer, hup, hall⟩
    · rw [hnone] at hdown
      exact absurd hpos (Nat.not_lt.2 hdown)
    · exact .inr ⟨hbuffer, hup, hsame.trans hall⟩
  | header rest => simpa only [hserver, hsame] using h
  | body rest => simpa only [hserver, hsame] using h
  | closed => simpa only [hserver, hsame] using h

/-- With the last byte of the answer nothing else is on its way. -/
theorem Pending.answered (h : Pending args request got s)
    (hwhole : args.answer.length ≤ got.length) :
    s.up = [] ∧ s.down = [] ∧ (s.server = .reading [] ∨ s.server = .closed) := by
  have hpos := answer_pos args
  have hends : ∀ {rest : Bytes}, got ++ s.down ++ rest = args.answer → s.down = [] ∧ rest = [] := by
    intro rest hsum
    have hlength := congrArg List.length hsum
    simp only [List.length_append] at hlength
    exact ⟨List.length_eq_zero_iff.1 (by omega), List.length_eq_zero_iff.1 (by omega)⟩
  unfold Pending at h
  cases hserver : s.server with
  | reading buffer =>
    rw [hserver] at h
    rcases h with ⟨hgot, -⟩ | ⟨hbuffer, hup, hall⟩
    · rw [hgot, List.length_nil] at hwhole
      omega
    · have hsum : got ++ s.down ++ [] = args.answer := by rw [List.append_nil, hall]
      exact ⟨hup, (hends hsum).1, .inl (by rw [hbuffer])⟩
  | header rest =>
    rw [hserver] at h
    exact absurd (hends h.2.2).2 (List.append_ne_nil_of_right_ne_nil _ (body_ne_nil args))
  | body rest =>
    rw [hserver] at h
    exact absurd (hends h.2.2).2 h.2.1
  | closed =>
    rw [hserver] at h
    obtain ⟨hup, rest, hsum⟩ := h
    refine ⟨hup.resolve_right fun hnone => ?_, (hends hsum).1, .inr rfl⟩
    have hnil := (List.append_eq_nil_iff.1 hnone).1
    rw [hnil, List.length_nil] at hwhole
    omega

theorem Pending.closed (h : Pending args request got s) :
    Pending args request got { s with server := .closed } := by
  unfold Pending at h ⊢
  cases hserver : s.server with
  | reading buffer =>
    rw [hserver] at h
    rcases h with ⟨hgot, hdown, -⟩ | ⟨-, hup, hall⟩
    · have hnone : got ++ s.down = [] := by rw [hgot, hdown]; rfl
      exact ⟨.inr hnone, by rw [hnone]; exact List.nil_prefix⟩
    · exact ⟨.inl hup, by rw [hall]⟩
  | header rest =>
    rw [hserver] at h
    exact ⟨.inl h.1, ⟨_, h.2.2⟩⟩
  | body rest =>
    rw [hserver] at h
    exact ⟨.inl h.1, ⟨_, h.2.2⟩⟩
  | closed => simpa only [hserver] using h

theorem inStep_step (hframed : e.framed) (h : step args s e = some s') (hs : InStep args s) :
    InStep args s' := by
  obtain ⟨hidle, hwaiting⟩ := hs
  cases happens_of_step h with
  | @asked asked hclient =>
    obtain ⟨hup, hdown, hserver⟩ := hidle hclient
    refine ⟨nofun, fun request got hnew => ?_⟩
    cases hnew
    refine ⟨hframed, ?_⟩
    unfold Pending
    rcases hserver with hserver | hserver
    · rw [hserver]
      exact .inl ⟨rfl, hdown, by simp [hup], by simpa [hup] using hframed.ne_nil⟩
    · rw [hserver]
      exact ⟨.inr (by simp [hdown]), by simp [hdown]⟩
  | @read n buffer hserver hpos hup hroom =>
    refine ⟨fun hclient => ?_, fun request got hclient => ?_⟩
    · rw [(hidle hclient).1] at hup
      exact absurd hpos (Nat.not_lt.2 hup)
    · obtain ⟨hframed, hpending⟩ := hwaiting request got hclient
      exact ⟨hframed, (hpending.read hframed hserver hpos hup).2⟩
  | @eof buffer hserver hup hclient =>
    refine ⟨fun hidle => ?_, fun request got hwaits => ?_⟩
    · rw [hclient] at hidle
      cases hidle
    · rw [hclient] at hwaits
      cases hwaits
  | @wroteHeader n rest hserver hpos hrest =>
    refine ⟨fun hclient => ?_, fun request got hclient => ?_⟩
    · have := (hidle hclient).2.2
      rw [hserver] at this
      simp at this
    · obtain ⟨hframed, hpending⟩ := hwaiting request got hclient
      exact ⟨hframed, hpending.wroteHeader hserver⟩
  | @wroteBody n rest hserver hpos hrest =>
    refine ⟨fun hclient => ?_, fun request got hclient => ?_⟩
    · have := (hidle hclient).2.2
      rw [hserver] at this
      simp at this
    · obtain ⟨hframed, hpending⟩ := hwaiting request got hclient
      exact ⟨hframed, hpending.wroteBody hserver⟩
  | @answered n request got hclient hpos hdown hwhole =>
    obtain ⟨hframed, hpending⟩ := hwaiting request got hclient
    have hlength : (got ++ s.down.take n).length = args.answer.length := by
      rw [List.length_append, List.length_take, Nat.min_eq_left hdown, hwhole]
    exact ⟨fun _ => (hpending.received hdown hpos).answered hlength.ge, nofun⟩
  | @received n request got hclient hpos hdown hmore =>
    obtain ⟨hframed, hpending⟩ := hwaiting request got hclient
    refine ⟨nofun, fun request' got' hnew => ?_⟩
    cases hnew
    exact ⟨hframed, hpending.received hdown hpos⟩
  | failed hserver =>
    refine ⟨fun hclient => ?_, fun request got hclient => ?_⟩
    · obtain ⟨hup, hdown, -⟩ := hidle hclient
      exact ⟨hup, hdown, .inr rfl⟩
    · obtain ⟨hframed, hpending⟩ := hwaiting request got hclient
      exact ⟨hframed, hpending.closed⟩
  | left => exact ⟨nofun, nofun⟩

/-- A connection that neither end has given up. -/
structure Live (args : Args) (s : State) : Prop where
  whole : Whole args s
  inStep : InStep args s
  server : s.server ≠ .closed
  client : s.client ≠ .gone

theorem live_step (hframed : e.framed) (hlasting : e.lasting = true)
    (h : step args s e = some s') (hs : Live args s) : Live args s' := by
  refine ⟨whole_step h hs.whole, inStep_step hframed h hs.inStep, ?_, ?_⟩
  · cases happens_of_step h with
    | asked | answered | received => exact hs.server
    | @read n buffer hserver hpos hup hroom =>
      cases hclient : s.client with
      | idle =>
        rw [(hs.inStep.idle hclient).1] at hup
        exact absurd hpos (Nat.not_lt.2 hup)
      | waiting request got =>
        obtain ⟨hframed, hpending⟩ := hs.inStep.waiting request got hclient
        exact (hpending.read hframed hserver hpos hup).1
      | gone => exact absurd hclient hs.client
    | eof hserver hup hclient => exact absurd hclient hs.client
    | wroteHeader => unfold afterHeader; split_ifs <;> exact nofun
    | wroteBody => unfold afterBody; split_ifs <;> exact nofun
    | failed | left => cases hlasting
  · cases happens_of_step h with
    | asked | answered | received => exact nofun
    | read | eof | wroteHeader | wroteBody => exact hs.client
    | failed | left => cases hlasting

/-- One of the two ends can go on without a new request. -/
def CanGo (args : Args) (s : State) : Prop :=
  ∃ e : Event, e.lasting = true ∧ (∀ request, e ≠ .request request) ∧ (step args s e).isSome = true

/-- Neither end waits for the other one for ever. -/
theorem canGo_of_waiting (hs : Live args s) (hclient : s.client = .waiting request got) :
    CanGo args s := by
  have hlength := (hs.whole.waiting request got hclient).1
  have hpending := (hs.inStep.waiting request got hclient).2
  unfold Pending at hpending
  have hfirst : ∀ {bytes : Bytes}, bytes ≠ [] → 1 ≤ bytes.length := List.length_pos_iff.2
  cases hserver : s.server with
  | reading buffer =>
    rw [hserver] at hpending
    have hroom : buffer.length + 1 ≤ maxRequest - 1 := hs.whole.bound buffer hserver
    rcases hpending with ⟨-, -, -, hmore⟩ | ⟨-, -, hall⟩
    · exact ⟨.read 1, rfl, nofun, by simp [step, hserver, hfirst hmore, hroom]⟩
    · have hdown : 1 ≤ s.down.length := by
        have := congrArg List.length hall
        rw [List.length_append] at this
        omega
      refine ⟨.receive 1, rfl, nofun, ?_⟩
      have hroom : got.length + 1 ≤ args.answer.length := hlength
      by_cases hwhole : got.length + 1 = args.answer.length
      · simp [step, hclient, hdown, hwhole]
      · simp [step, hclient, hdown, hroom, hwhole]
  | header rest =>
    rw [hserver] at hpending
    exact ⟨.write 1, rfl, nofun, by simp [step, hserver, hfirst hpending.2.1]⟩
  | body rest =>
    rw [hserver] at hpending
    exact ⟨.write 1, rfl, nofun, by simp [step, hserver, hfirst hpending.2.1]⟩
  | closed => exact absurd hserver hs.server

/-- How many steps the bytes of an answer have before them at most. -/
def Server.left (args : Args) (asked : Bool) : Server → ℕ
  | reading _ => if asked then 2 * args.answer.length else 0
  | header rest => 2 * (rest.length + args.body.length)
  | body rest => 2 * rest.length
  | closed => 0

/-- How many steps a connection can take at most before the next request. -/
def State.rank (args : Args) (s : State) : ℕ :=
  s.up.length + s.down.length + s.server.left args (!s.up.isEmpty)

/-- What the client waits for while the server is not at rest. -/
theorem Live.waiting (hs : Live args s) (hbusy : s.up ≠ [] ∨ s.server ≠ .reading []) :
    ∃ request got, s.client = .waiting request got := by
  cases hclient : s.client with
  | idle =>
    obtain ⟨hup, -, hserver⟩ := hs.inStep.idle hclient
    rcases hbusy with hbusy | hbusy
    · exact absurd hup hbusy
    · exact absurd (hserver.resolve_right hs.server) hbusy
  | waiting request got => exact ⟨request, got, rfl⟩
  | gone => exact absurd hclient hs.client

theorem length_answer (args : Args) : args.answer.length = args.header.length + args.body.length :=
  List.length_append

theorem rank_step (hlasting : e.lasting = true) (hrequest : ∀ request, e ≠ .request request)
    (h : step args s e = some s') (hs : Live args s) : s'.rank args < s.rank args := by
  cases happens_of_step h with
  | asked => exact absurd rfl (hrequest _)
  | @read n buffer hserver hpos hup hroom =>
    have hmore : s.up ≠ [] := List.length_pos_iff.1 (hpos.trans_le hup)
    obtain ⟨request, got, hclient⟩ := hs.waiting (.inl hmore)
    obtain ⟨hframed, hpending⟩ := hs.inStep.waiting request got hclient
    rw [Pending, hserver] at hpending
    obtain ⟨-, -, hall, -⟩ := hpending.resolve_right fun h => hmore h.2.1
    have hwhole : buffer ++ s.up.take n ++ s.up.drop n = request := by
      rw [List.append_assoc, List.take_append_drop, hall]
    rcases afterRead_cases args hframed hwhole with ⟨hrest, hnext⟩ | ⟨hrest, hnext⟩
    · simp only [State.rank, hserver, hnext, hrest, Server.left, length_answer, List.length_nil,
        List.isEmpty_eq_false_iff.2 hmore, Bool.not_false, if_true]
      omega
    · simp only [State.rank, hserver, hnext, Server.left, List.isEmpty_eq_false_iff.2 hmore,
        List.isEmpty_eq_false_iff.2 hrest, List.length_drop]
      omega
  | eof hserver hup hclient => exact absurd hclient hs.client
  | @wroteHeader n rest hserver hpos hrest =>
    unfold State.rank afterHeader
    rw [hserver]
    split_ifs with hnil
    · have := List.drop_eq_nil_iff.1 hnil
      simp only [Server.left, List.length_append, List.length_take]
      omega
    · simp only [Server.left, List.length_append, List.length_take, List.length_drop]
      omega
  | @wroteBody n rest hserver hpos hrest =>
    obtain ⟨request, got, hclient⟩ := hs.waiting (.inr (by rw [hserver]; exact nofun))
    have hpending := (hs.inStep.waiting request got hclient).2
    rw [Pending, hserver] at hpending
    unfold State.rank afterBody
    rw [hserver, hpending.1]
    split_ifs with hnil
    · have := List.drop_eq_nil_iff.1 hnil
      simp only [Server.left, List.length_append, List.length_take, List.isEmpty_nil, Bool.not_true,
        Bool.false_eq_true, if_false]
      omega
    · simp only [Server.left, List.length_append, List.length_take, List.length_drop]
      omega
  | @answered n request got hclient hpos hdown hwhole =>
    simp only [State.rank, List.length_drop]
    omega
  | @received n request got hclient hpos hdown hmore =>
    simp only [State.rank, List.length_drop]
    omega
  | failed | left => cases hlasting

theorem Live.rank_le (hs : Live args s) :
    s.rank args ≤ maxRequest - 1 + 2 * args.answer.length := by
  have hanswer := length_answer args
  unfold State.rank
  cases hclient : s.client with
  | idle =>
    obtain ⟨hup, hdown, hserver⟩ := hs.inStep.idle hclient
    simp [hup, hdown, hserver.resolve_right hs.server, Server.left]
  | waiting request got =>
    obtain ⟨hframed, hpending⟩ := hs.inStep.waiting request got hclient
    unfold Pending at hpending
    cases hserver : s.server with
    | reading buffer =>
      rw [hserver] at hpending
      rcases hpending with ⟨-, hdown, hall, -⟩ | ⟨-, hup, hall⟩
      · have hlength := congrArg List.length hall
        have hfits := hframed.fits
        simp only [hdown, Server.left, List.length_nil, List.length_append] at hlength ⊢
        split_ifs <;> omega
      · have hlength := congrArg List.length hall
        simp only [hup, Server.left, List.length_nil, List.isEmpty_nil, List.length_append,
          Bool.not_true, Bool.false_eq_true, if_false] at hlength ⊢
        omega
    | header rest =>
      rw [hserver] at hpending
      have hlength := congrArg List.length hpending.2.2
      simp only [hpending.1, Server.left, List.length_nil, List.length_append] at hlength ⊢
      omega
    | body rest =>
      rw [hserver] at hpending
      have hlength := congrArg List.length hpending.2.2
      simp only [hpending.1, Server.left, List.length_nil, List.length_append] at hlength ⊢
      omega
    | closed => exact absurd hserver hs.server
  | gone => exact absurd hclient hs.client

theorem live_run (hframed : ∀ e ∈ es, e.framed ∧ e.lasting = true)
    (h : Transition.run (step args) s es = some s') (hs : Live args s) : Live args s' := by
  have hstep : ∀ s e s', (e.framed ∧ e.lasting = true) → step args s e = some s' →
      Live args s → Live args s' := fun _ _ _ hok => live_step hok.1 hok.2
  exact Transition.run_preserves hstep
    (Transition.allowed_of_forall fun e he _ => hframed e he) h hs

theorem rank_run {later : List Event} (hlasting : ∀ e ∈ later, e.lasting = true)
    (hrequest : ∀ e ∈ later, ∀ request, e ≠ .request request)
    (h : Transition.run (step args) s later = some s') (hs : Live args s) :
    later.length + s'.rank args ≤ s.rank args ∧ Live args s' := by
  induction later generalizing s with
  | nil =>
    cases h
    exact ⟨by simp, hs⟩
  | cons e later ih =>
    obtain ⟨t, hstep, h⟩ := Option.bind_eq_some_iff.1 h
    have he := hlasting e List.mem_cons_self
    have hother := hrequest e List.mem_cons_self
    have hframed : e.framed := by
      cases e with
      | request bytes => exact absurd rfl (hother bytes)
      | _ => trivial
    have hdrop := rank_step he hother hstep hs
    obtain ⟨hrank, hlive⟩ := ih (fun e h => hlasting e (List.mem_cons_of_mem _ h))
      (fun e h => hrequest e (List.mem_cons_of_mem _ h)) h (live_step hframed he hstep hs)
    refine ⟨?_, hlive⟩
    rw [List.length_cons]
    omega

/-- **Every request is answered.**  As long as neither end gives up, the connection takes at most so
many steps before the next request, wherever the bytes are cut; while the answer is not whole one of
the two ends can go on; and when it is, every request has its answer. -/
theorem always_answered {later : List Event} (hframed : ∀ e ∈ es, e.framed ∧ e.lasting = true)
    (h : Transition.run (step args) .fresh es = some s) (hlasting : ∀ e ∈ later, e.lasting = true)
    (hrequest : ∀ e ∈ later, ∀ request, e ≠ .request request)
    (hlater : Transition.run (step args) s later = some s') :
    later.length ≤ maxRequest - 1 + 2 * args.answer.length ∧
      (CanGo args s' ∨ s'.answers = List.replicate s'.requests.length args.answer) := by
  have hlive : Live args s := live_run hframed h ⟨whole_fresh, inStep_fresh, nofun, nofun⟩
  obtain ⟨hrank, hlive'⟩ := rank_run hlasting hrequest hlater hlive
  have hle := hlive.rank_le
  refine ⟨by omega, ?_⟩
  cases hclient : s'.client with
  | idle =>
    have hcount := (hlive'.whole.idle hclient).1
    exact .inr (List.eq_replicate_iff.2 ⟨hcount.symm, hlive'.whole.answers⟩)
  | waiting request got => exact .inl (canGo_of_waiting hlive' hclient)
  | gone => exact absurd hclient hlive'.client

theorem framed_get : Framed get := by
  have hfirst : ∀ p ∈ get.inits, ended p = true → p = get := by decide +kernel
  exact ⟨by decide, by decide +kernel, fun p hp => hfirst p ((List.mem_inits _ _).2 hp)⟩

theorem always_answered_get : ∃ s s', Transition.run (step smallest) .fresh
      [.request get, .read 9, .read 18] = some s ∧
    Transition.run (step smallest) s [.write 88, .write 1, .receive 89] = some s' ∧
    [Event.write 88, .write 1, .receive 89].length ≤ maxRequest - 1 + 2 * smallest.answer.length ∧
      (CanGo smallest s' ∨ s'.answers = List.replicate s'.requests.length smallest.answer) := by
  have hframed : ∀ e ∈ [Event.request get, .read 9, .read 18], e.framed ∧ e.lasting = true := by
    simp [Event.framed, Event.lasting, framed_get]
  have hrun : ((Transition.run (step smallest) .fresh [.request get, .read 9, .read 18]).bind
      fun s => Transition.run (step smallest) s [.write 88, .write 1, .receive 89]).isSome = true := by
    decide +kernel
  obtain ⟨s', hs'⟩ := Option.isSome_iff_exists.1 hrun
  obtain ⟨s, hs, hlater⟩ := Option.bind_eq_some_iff.1 hs'
  exact ⟨s, s', hs, hlater, always_answered hframed hs (by decide) (by simp) hlater⟩

end InStep

end Httpd

end Phase7
