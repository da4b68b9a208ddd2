import K8Labs.Phase8.Service

/-!
# What the replicas share

The values that the replicas of the reference service put into Redis and PostgreSQL, over all orders
of the steps of all requests.

* `cached_was_row` : **a cached value is what the table had for the id** at some moment of the run.
* `one_mix_splits` : with one mix **no request reads what another one has written**.
* `quiet_coherent` : what makes the cache agree with the table.
-/

namespace Phase8

namespace Service

/-! ### Keys -/

section Keys

theorem append_left_injective {start a b : String} (h : start ++ a = start ++ b) : a = b := by
  have hlist := congrArg String.toList h
  simp only [String.toList_append, List.append_cancel_left_eq] at hlist
  exact String.toList_injective hlist

theorem toString_nat_injective {n m : ℕ} (h : toString n = toString m) : n = m := by
  have hvalue := congrArg (fun s => Py.digitsValue s.toList) h
  simpa only [Py.toList_toString, Py.digitsValue_natDigits] using hvalue

theorem toString_int_injective {n m : ℤ} (h : toString n = toString m) : n = m := by
  have hminus : ∀ {n m : ℕ}, toString n ≠ "-" ++ toString m := by
    intro n m h
    have hmem : '-' ∈ (toString n).toList := by simp [h]
    rw [Py.toList_toString] at hmem
    exact absurd (Py.isDigit_of_mem_natDigits hmem) (by decide)
  cases n with
  | ofNat n =>
    cases m with
    | ofNat m => exact congrArg Int.ofNat (toString_nat_injective h)
    | negSucc m => exact absurd h hminus
  | negSucc n =>
    cases m with
    | ofNat m => exact absurd h.symm hminus
    | negSucc m =>
      have hsucc : n + 1 = m + 1 := toString_nat_injective (append_left_injective h)
      rw [Nat.succ.inj hsucc]

theorem cacheKey_injective {id id' : ℤ} (h : cacheKey id = cacheKey id') : id = id' :=
  toString_int_injective (append_left_injective h)

end Keys

/-! ### What a step changes -/

section Changes

variable {ρ : Type} {default : ρ → Mix} {s s' : State ρ} {e : Event ρ} {q p : Request ρ} {v : String}

/-- The requests whose calls can still do something. -/
def State.calls (s : State ρ) : List (Request ρ) := s.requests ++ s.strays

theorem mem_calls_of_request (h : p ∈ s.requests) : p ∈ s.calls := List.mem_append_left _ h

theorem effect_items (s : State ρ) (q : Request ρ) (id : ℤ) :
    (effect s q).items id = s.items id ∨
      ∃ v, q.phase = .upsert v ∧ id = q.id ∧ (effect s q).items id = some v := by
  unfold effect
  split
  · rename_i v hphase
    by_cases hid : id = q.id
    · exact .inr ⟨v, hphase, hid, by simp [hid]⟩
    · exact .inl (Function.update_of_ne hid _ _)
  · exact .inl rfl
  · exact .inl rfl

theorem effect_cache (s : State ρ) (q : Request ρ) (key : String) :
    (effect s q).cache key = s.cache key ∨
      ∃ v, q.phase = .store v ∧ key = cacheKey q.id ∧ (effect s q).cache key = some v := by
  unfold effect
  split
  · exact .inl rfl
  · rename_i v hphase
    by_cases hkey : key = cacheKey q.id
    · exact .inr ⟨v, hphase, hkey, by simp [hkey]⟩
    · exact .inl (Function.update_of_ne hkey _ _)
  · exact .inl rfl

@[simp] theorem effect_strays : (effect s q).strays = s.strays := by
  unfold effect
  split <;> rfl

theorem attempt_items (s : State ρ) (q : Request ρ) (o : Outcome) (id : ℤ) :
    (s.attempt q o).items id = s.items id ∨
      ∃ v, q.phase = .upsert v ∧ id = q.id ∧ (s.attempt q o).items id = some v := by
  cases o with
  | done => exact effect_items s q id
  | failed => exact .inl rfl
  | lost => exact .inl rfl

theorem attempt_cache (s : State ρ) (q : Request ρ) (o : Outcome) (key : String) :
    (s.attempt q o).cache key = s.cache key ∨
      ∃ v, q.phase = .store v ∧ key = cacheKey q.id ∧ (s.attempt q o).cache key = some v := by
  cases o with
  | done => exact effect_cache s q key
  | failed => exact .inl rfl
  | lost => exact .inl rfl

/-- Where the value that a request stores in the cache comes from. -/
theorem row_of_store (h : afterCall s q = .store v) :
    (effect s q).row q.id = v ∧ (q.phase = .upsert v ∨ q.phase = .select) := by
  unfold afterCall at h
  split at h
  · rename_i payload hphase
    cases h
    exact ⟨by simp [effect, hphase, State.row], .inl hphase⟩
  · split_ifs at h
  · rename_i hphase
    cases h
    exact ⟨by simp [effect, hphase, State.row], .inr hphase⟩
  · cases h

theorem lookup_of_select (h : afterCall s q = .select) : q.phase = .lookup := by
  unfold afterCall at h
  split at h
  · cases h
  · assumption
  · cases h
  · cases h

theorem afterCall_ne_upsert : afterCall s q ≠ .upsert v := by
  unfold afterCall
  split
  · exact nofun
  · split_ifs
    · exact nofun
    · exact nofun
  · exact nofun
  · exact nofun

theorem afterCall_ne_lookup : afterCall s q ≠ .lookup := by
  unfold afterCall
  split
  · exact nofun
  · split_ifs
    · exact nofun
    · exact nofun
  · exact nofun
  · exact nofun

/-- How a request that a step leaves has come about. -/
inductive Came (default : ρ → Mix) (e : Event ρ) (s s' : State ρ) (p : Request ρ) : Prop
  | kept (hp : p ∈ s.calls)
  | arrived {mix id : Option HeaderValue} (he : e = .arrive p.replica mix id)
      (hmix : resolveMix mix (default p.replica) = .ok p.mix) (hphase : p.phase = .resolved)
  /-- It is a write if it begins with an upsert, and a read if it begins with a lookup. -/
  | began {q : Request ρ} (hq : q ∈ s.requests) (hmix : p.mix = q.mix) (hid : p.id = q.id)
      (hphase : p.phase = if q.mix.isWrite q.id then
        .upsert (payload q.id (load (s.served q.replica))) else .lookup)
  | went {q : Request ρ} (hq : q ∈ s.requests) (hmix : p.mix = q.mix) (hid : p.id = q.id)
      (hupsert : ∀ v, p.phase ≠ .upsert v) (hlookup : p.phase ≠ .lookup)
      (hselect : p.phase = .select → q.phase = .lookup)
      (hstore : ∀ v, p.phase = .store v →
        s'.row q.id = v ∧ (q.phase = .upsert v ∨ q.phase = .select))

theorem Came.of_set {i : ℕ} {phase : Phase} {strays : List (Request ρ)}
    (hp : p ∈ s.requests.set i { q with phase := phase } ++ strays)
    (hstrays : ∀ p ∈ strays, p ∈ s.calls) (hnew : Came default e s s' { q with phase := phase }) :
    Came default e s s' p := by
  rcases List.mem_append.1 hp with hp | hp
  · rcases List.mem_or_eq_of_mem_set hp with hp | rfl
    · exact .kept (mem_calls_of_request hp)
    · exact hnew
  · exact .kept (hstrays p hp)

/-- After its last call a request is in none of the phases that the cache depends on. -/
theorem Came.of_not_isCall {phase : Phase} (hq : q ∈ s.requests) (hphase : phase.isCall = false) :
    Came default e s s' { q with phase := phase } := by
  have hne : ∀ other : Phase, other.isCall = true → phase ≠ other := by
    rintro other hother rfl
    rw [hphase] at hother
    cases hother
  exact .went hq rfl rfl (fun v => hne _ rfl) (hne _ rfl) (fun h => absurd h (hne _ rfl))
    fun v h => absurd h (hne _ rfl)

theorem mem_calls_of_stray (h : p ∈ s.strays) : p ∈ s.calls := List.mem_append_right _ h

/-- What becomes of a call that nobody waits for. -/
theorem mem_calls_of_attempt {o : Outcome} (hq : q ∈ s.requests)
    (hp : p ∈ (s.attempt q o).strays) : p ∈ s.calls := by
  cases o with
  | done => exact mem_calls_of_stray (by simpa [State.attempt] using hp)
  | failed => exact mem_calls_of_stray hp
  | lost =>
    rcases List.mem_append.1 hp with hp | hp
    · exact mem_calls_of_stray hp
    · rw [List.mem_singleton.1 hp]
      exact mem_calls_of_request hq

variable [DecidableEq ρ]

/-- A step changes a row to what an upsert of the id says. -/
theorem items_of_step (h : step default s e = some s') (id : ℤ) :
    s'.items id = s.items id ∨
      ∃ q ∈ s.calls, ∃ v, q.phase = .upsert v ∧ id = q.id ∧ s'.items id = some v := by
  cases happens_of_step h with
  | refused | arrived | expired | began | counted | noted | blamed | answered => exact .inl rfl
  | @called i o q hq hphase =>
    rcases attempt_items s q o id with hsame | hnew
    · exact .inl hsame
    · exact .inr ⟨q, mem_calls_of_request (List.mem_of_getElem? hq), hnew⟩
  | @abandoned i o q hq hphase =>
    rcases attempt_items s q o id with hsame | hnew
    · exact .inl hsame
    · exact .inr ⟨q, mem_calls_of_request (List.mem_of_getElem? hq), hnew⟩
  | @landed i q hq =>
    rcases effect_items { s with strays := s.strays.eraseIdx i } q id with hsame | hnew
    · exact .inl hsame
    · exact .inr ⟨q, mem_calls_of_stray (List.mem_of_getElem? hq), hnew⟩

/-- A step drops a key, or changes it to what a request stores under it. -/
theorem cache_of_step (h : step default s e = some s') (key : String) :
    s'.cache key = s.cache key ∨ s'.cache key = none ∨
      ∃ q ∈ s.calls, ∃ v, q.phase = .store v ∧ key = cacheKey q.id ∧ s'.cache key = some v := by
  cases happens_of_step h with
  | refused | arrived | began | counted | noted | blamed | answered => exact .inl rfl
  | expired dropped =>
    by_cases hkey : key = dropped
    · exact .inr (.inl (by simp [hkey]))
    · exact .inl (Function.update_of_ne hkey _ _)
  | @called i o q hq hphase =>
    rcases attempt_cache s q o key with hsame | hnew
    · exact .inl hsame
    · exact .inr (.inr ⟨q, mem_calls_of_request (List.mem_of_getElem? hq), hnew⟩)
  | @abandoned i o q hq hphase =>
    rcases attempt_cache s q o key with hsame | hnew
    · exact .inl hsame
    · exact .inr (.inr ⟨q, mem_calls_of_request (List.mem_of_getElem? hq), hnew⟩)
  | @landed i q hq =>
    rcases effect_cache { s with strays := s.strays.eraseIdx i } q key with hsame | hnew
    · exact .inl hsame
    · exact .inr (.inr ⟨q, mem_calls_of_stray (List.mem_of_getElem? hq), hnew⟩)

theorem came_of_step (h : step default s e = some s') (hp : p ∈ s'.calls) :
    Came default e s s' p := by
  cases happens_of_step h with
  | refused | expired => exact .kept hp
  | arrived hmix =>
    rw [State.calls, List.append_assoc, List.mem_append, List.mem_append, List.mem_singleton] at hp
    rcases hp with hp | rfl | hp
    · exact .kept (mem_calls_of_request hp)
    · exact .arrived rfl hmix rfl
    · exact .kept (mem_calls_of_stray hp)
  | @began i o q hq hphase =>
    exact .of_set hp (fun p hp => mem_calls_of_stray (s := s) hp)
      (.began (List.mem_of_getElem? hq) rfl rfl rfl)
  | @called i o q hq hphase =>
    have hmem := List.mem_of_getElem? hq
    rw [State.calls, State.goOn, attempt_requests] at hp
    refine .of_set hp (fun p hp => mem_calls_of_attempt hmem hp) ?_
    split_ifs with ho
    · rw [ho]
      exact .went hmem rfl rfl (fun v => afterCall_ne_upsert) afterCall_ne_lookup lookup_of_select
        fun v => row_of_store
    · exact .of_not_isCall hmem rfl
  | counted hq | noted hq | blamed hq =>
    exact .of_set hp (fun p hp => mem_calls_of_stray (s := s) hp)
      (.of_not_isCall (List.mem_of_getElem? hq) rfl)
  | answered hq hphase =>
    rcases List.mem_append.1 hp with hp | hp
    · exact .kept (mem_calls_of_request (List.mem_of_mem_eraseIdx hp))
    · exact .kept (mem_calls_of_stray hp)
  | @abandoned i o q hq hphase =>
    rcases List.mem_append.1 hp with hp | hp
    · exact .kept (mem_calls_of_request (List.mem_of_mem_eraseIdx hp))
    · exact .kept (mem_calls_of_attempt (List.mem_of_getElem? hq) hp)
  | landed hq =>
    rw [State.calls, effect_requests, effect_strays] at hp
    rcases List.mem_append.1 hp with hp | hp
    · exact .kept (mem_calls_of_request hp)
    · exact .kept (mem_calls_of_stray (List.mem_of_mem_eraseIdx hp))

end Changes

/-! ### Where cached values come from -/

section Provenance

variable {ρ : Type} [DecidableEq ρ] {default : ρ → Mix} {s s' s₀ : State ρ} {e : Event ρ}
  {es : List (Event ρ)} {id : ℤ} {v : String}

/-- At some moment of the run, the table answered with the value for the id. -/
def Had (default : ρ → Mix) (s₀ : State ρ) (es : List (Event ρ)) (id : ℤ) (v : String) : Prop :=
  ∃ before after t, es = before ++ after ∧ Transition.run (step default) s₀ before = some t ∧
    t.row id = v

theorem Had.later (h : Had default s₀ es id v) (e : Event ρ) : Had default s₀ (es ++ [e]) id v := by
  obtain ⟨before, after, t, rfl, hrun, hrow⟩ := h
  exact ⟨before, after ++ [e], t, by rw [List.append_assoc], hrun, hrow⟩

theorem had_now (h : Transition.run (step default) s₀ es = some s) :
    Had default s₀ es id (s.row id) := ⟨es, [], s, by simp, h, rfl⟩

/-- Everything that is cached, or will be, was a row. -/
structure Provenance (default : ρ → Mix) (s₀ : State ρ) (es : List (Event ρ)) (s : State ρ) :
    Prop where
  cached : ∀ id v, s.cache (cacheKey id) = some v → Had default s₀ es id v
  stored : ∀ p ∈ s.calls, ∀ v, p.phase = .store v → Had default s₀ es p.id v

theorem provenance_step (hrun : Transition.run (step default) s₀ es = some s)
    (h : step default s e = some s') (hs : Provenance default s₀ es s) :
    Provenance default s₀ (es ++ [e]) s' := by
  have hrun' : Transition.run (step default) s₀ (es ++ [e]) = some s' :=
    Transition.run_concat_eq_some.2 ⟨s, hrun, h⟩
  constructor
  · intro id v hv
    rcases cache_of_step h (cacheKey id) with hsame | hnone | ⟨q, hq, v', hphase, hkey, hnew⟩
    · exact (hs.cached id v (hsame ▸ hv)).later e
    · rw [hnone] at hv
      cases hv
    · obtain rfl := cacheKey_injective hkey
      obtain rfl : v' = v := Option.some.inj (hnew.symm.trans hv)
      exact (hs.stored q hq v' hphase).later e
  · intro p hp v hv
    cases came_of_step h hp with
    | kept hp => exact (hs.stored p hp v hv).later e
    | arrived he hmix hphase => rw [hphase] at hv; cases hv
    | began hq hmix hid hphase =>
      rw [hphase] at hv
      split_ifs at hv
    | went hq hmix hid hupsert hlookup hselect hstore =>
      obtain ⟨rfl, -⟩ := hstore v hv
      rw [hid]
      exact had_now hrun'

/-- No request has come in yet, and the cache is empty. -/
structure Cold (s : State ρ) : Prop where
  cache : ∀ key, s.cache key = none
  requests : s.requests = []
  strays : s.strays = []

omit [DecidableEq ρ] in
theorem Cold.calls (h : Cold s) : s.calls = [] := by simp [State.calls, h.requests, h.strays]

/-- **A cached value is what the table had.**  After every run that begins with an empty cache,
whatever is cached for an id is what the table answered for that id at some moment of the run, in
whatever order the calls of the replicas came and whichever of them failed or came late. -/
theorem cached_was_row (hcold : Cold s₀) (h : Transition.run (step default) s₀ es = some s)
    (hv : s.cache (cacheKey id) = some v) :
    ∃ before after t, es = before ++ after ∧ Transition.run (step default) s₀ before = some t ∧
      t.row id = v := by
  have hinit : Provenance default s₀ [] s₀ :=
    ⟨fun id v hv => by simp [hcold.cache] at hv, fun p hp => by simp [hcold.calls] at hp⟩
  have hend : Provenance default s₀ es s :=
    Transition.run_history hinit (fun _ _ _ _ hrun hstep hs => provenance_step hrun hstep hs) h
  exact hend.cached id v hv

/-- A request that finds no row caches `missing`. -/
theorem cached_was_row_missing : ∃ before after t,
    alone none none [.done, .done, .done, .done] = before ++ after ∧
      Transition.run (step fun _ => .balanced) (State.fresh Unit) before = some t ∧
      t.row 0 = "missing" := by
  have hrun : Transition.run (step fun _ => .balanced) (State.fresh Unit)
      (alone none none [.done, .done, .done, .done]) = some _ := rfl
  exact cached_was_row ⟨fun _ => rfl, rfl, rfl⟩ hrun (by decide)

end Provenance

/-! ### One mix -/

section OneMix

variable {ρ : Type} [DecidableEq ρ] {default : ρ → Mix} {s s' s₀ : State ρ} {e : Event ρ}
  {es : List (Event ρ)} {m : Mix}

/-- Every request that is let in asks for the mix. -/
def Event.asksFor (default : ρ → Mix) (m : Mix) : Event ρ → Prop
  | .arrive replica mix _ => ∀ m', resolveMix mix (default replica) = .ok m' → m' = m
  | _ => True

/-- The ids that the mix writes hold payloads of their own; the others are not in the table, and the
cache says so. -/
structure Split (m : Mix) (s : State ρ) : Prop where
  items : ∀ id v, s.items id = some v → m.isWrite id = true ∧ ∃ n, v = payload id n
  cached : ∀ id v, s.cache (cacheKey id) = some v →
    if m.isWrite id then ∃ n, v = payload id n else v = "missing"
  mix : ∀ p ∈ s.calls, p.mix = m
  upserts : ∀ p ∈ s.calls, ∀ v, p.phase = .upsert v → m.isWrite p.id = true ∧ ∃ n, v = payload p.id n
  lookups : ∀ p ∈ s.calls, p.phase = .lookup ∨ p.phase = .select → m.isWrite p.id = false
  stores : ∀ p ∈ s.calls, ∀ v, p.phase = .store v →
    if m.isWrite p.id then ∃ n, v = payload p.id n else v = "missing"

theorem split_step (hmix : e.asksFor default m) (h : step default s e = some s')
    (hs : Split m s) : Split m s' := by
  have hitems : ∀ id v, s'.items id = some v → m.isWrite id = true ∧ ∃ n, v = payload id n := by
    intro id v hv
    rcases items_of_step h id with hsame | ⟨q, hq, v', hphase, rfl, hnew⟩
    · exact hs.items id v (hsame ▸ hv)
    · obtain rfl : v' = v := Option.some.inj (hnew.symm.trans hv)
      exact hs.upserts q hq v' hphase
  refine ⟨hitems, ?_, ?_, ?_, ?_, ?_⟩
  · intro id v hv
    rcases cache_of_step h (cacheKey id) with hsame | hnone | ⟨q, hq, v', hphase, hkey, hnew⟩
    · exact hs.cached id v (hsame ▸ hv)
    · rw [hnone] at hv
      cases hv
    · obtain rfl := cacheKey_injective hkey
      obtain rfl : v' = v := Option.some.inj (hnew.symm.trans hv)
      exact hs.stores q hq v' hphase
  · intro p hp
    cases came_of_step h hp with
    | kept hp => exact hs.mix p hp
    | arrived he hresolved =>
      rw [he] at hmix
      exact hmix _ hresolved
    | began hq hmix hid hphase => rw [hmix, hs.mix _ (mem_calls_of_request hq)]
    | went hq hmix => rw [hmix, hs.mix _ (mem_calls_of_request hq)]
  · intro p hp v hv
    cases came_of_step h hp with
    | kept hp => exact hs.upserts p hp v hv
    | arrived he hresolved hphase => rw [hphase] at hv; cases hv
    | @began q hq hmix hid hphase =>
      rw [hs.mix q (mem_calls_of_request hq)] at hphase
      rw [hphase] at hv
      split_ifs at hv with hwrite
      cases hv
      rw [hid]
      exact ⟨hwrite, _, rfl⟩
    | went hq hmix hid hupsert => exact absurd hv (hupsert v)
  · intro p hp hread
    cases came_of_step h hp with
    | kept hp => exact hs.lookups p hp hread
    | arrived he hresolved hphase => rw [hphase] at hread; simp at hread
    | @began q hq hmix hid hphase =>
      rw [hs.mix q (mem_calls_of_request hq)] at hphase
      rw [hphase] at hread
      split_ifs at hread with hwrite
      · simp at hread
      · rw [hid]
        exact Bool.eq_false_of_not_eq_true hwrite
    | @went q hq hmix hid hupsert hlookup hselect hstore =>
      rw [hid]
      refine hs.lookups q (mem_calls_of_request hq) (.inl ?_)
      exact hselect (hread.resolve_left hlookup)
  · intro p hp v hv
    cases came_of_step h hp with
    | kept hp => exact hs.stores p hp v hv
    | arrived he hresolved hphase => rw [hphase] at hv; cases hv
    | began hq hmix hid hphase =>
      rw [hphase] at hv
      split_ifs at hv
    | @went q hq hmix hid hupsert hlookup hselect hstore =>
      obtain ⟨hrow, hbefore⟩ := hstore v hv
      rw [hid]
      rcases hbefore with hbefore | hbefore
      · obtain ⟨hwrite, hpayload⟩ := hs.upserts q (mem_calls_of_request hq) v hbefore
        rwa [if_pos hwrite]
      · have hread := hs.lookups q (mem_calls_of_request hq) (.inr hbefore)
        have hnone : s'.items q.id = none := by
          cases hsome : s'.items q.id with
          | none => rfl
          | some w => exact absurd (hitems q.id w hsome).1 (by simp [hread])
        rw [if_neg (by simp [hread]), ← hrow, State.row, hnone, Option.getD_none]

/-- **One mix splits the ids.**  From empty stores, as long as all requests that are let in ask for
one mix, a request that reads finds no row and nothing but `missing` in the cache: no request reads
what another one has written.  For an id that the mix writes, the cache holds payloads of that id. -/
theorem one_mix_splits (hcold : Cold s₀) (hempty : ∀ id, s₀.items id = none)
    (hmix : ∀ e ∈ es, e.asksFor default m) (h : Transition.run (step default) s₀ es = some s) :
    (∀ q ∈ s.requests, q.phase = .lookup ∨ q.phase = .select →
      s.items q.id = none ∧ ∀ v, s.cache (cacheKey q.id) = some v → v = "missing") ∧
    ∀ id v, m.isWrite id = true → s.cache (cacheKey id) = some v → ∃ n, v = payload id n := by
  have hinit : Split m s₀ :=
    ⟨fun id v hv => by simp [hempty] at hv, fun id v hv => by simp [hcold.cache] at hv,
      fun p hp => by simp [hcold.calls] at hp, fun p hp => by simp [hcold.calls] at hp,
      fun p hp => by simp [hcold.calls] at hp, fun p hp => by simp [hcold.calls] at hp⟩
  have hstep : ∀ s e s', e.asksFor default m → step default s e = some s' → Split m s → Split m s' :=
    fun _ _ _ => split_step
  have hend : Split m s :=
    Transition.run_preserves hstep (Transition.allowed_of_forall fun e he _ => hmix e he) h hinit
  constructor
  · intro q hq hread
    have hwrite := hend.lookups q (mem_calls_of_request hq) hread
    constructor
    · cases hsome : s.items q.id with
      | none => rfl
      | some v => exact absurd (hend.items q.id v hsome).1 (by simp [hwrite])
    · intro v hv
      simpa [hwrite] using hend.cached q.id v hv
  · intro id v hwrite hv
    simpa [hwrite] using hend.cached id v hv

/-- A request writes the row of id 5 and is answered; the next one reads id 4 and goes on to the
table. -/
def writeThenRead : List (Event Unit) :=
  alone none (some [53]) (List.replicate 6 .done) ++ alone none (some [52]) (List.replicate 2 .done)

theorem one_mix_splits_writeThenRead : ∃ s,
    Transition.run (step fun _ => .balanced) (State.fresh Unit) writeThenRead = some s ∧
    (∀ q ∈ s.requests, q.phase = .lookup ∨ q.phase = .select →
      s.items q.id = none ∧ ∀ v, s.cache (cacheKey q.id) = some v → v = "missing") ∧
    ∀ id v, Mix.balanced.isWrite id = true → s.cache (cacheKey id) = some v →
      ∃ n, v = payload id n := by
  have hrun : Transition.run (step fun _ => .balanced) (State.fresh Unit) writeThenRead =
      some _ := rfl
  refine ⟨_, hrun, one_mix_splits ⟨fun _ => rfl, rfl, rfl⟩ (fun _ => rfl) ?_ hrun⟩
  simp [writeThenRead, alone, Event.asksFor, resolveMix]

end OneMix

/-! ### When the cache agrees with the table -/

section Quiet

variable {ρ : Type} [DecidableEq ρ] {default : ρ → Mix} {s s' s₀ : State ρ} {e : Event ρ}
  {es : List (Event ρ)} {id : ℤ} {v : String}

/-- A request is about to store a value in the cache. -/
def Phase.isStore : Phase → Bool
  | .store _ => true
  | _ => false

/-- An event that does not let the cache fall behind the table: an upsert is carried out when it is
called or never, and not while another request is about to cache an older row of its id; and a request
that has written its row stores it in the cache. -/
def Quiet (s : State ρ) : Event ρ → Prop
  | .proceed i o => ∀ q, s.requests[i]? = some q →
    (∀ v, q.phase = .upsert v → o ≠ .lost ∧
      (o = .done → ∀ p ∈ s.requests.eraseIdx i ++ s.strays, p.phase.isStore = true → p.id ≠ q.id)) ∧
    (q.phase.isStore = true → q.mix.isWrite q.id = true → o = .done)
  | .abandon i o => ∀ q, s.requests[i]? = some q →
    (∀ v, q.phase = .upsert v → o = .failed) ∧
    (q.phase.isStore = true → q.mix.isWrite q.id = false)
  | _ => True

/-- A request has written the row of an id and is about to cache it. -/
def Pending (s : State ρ) (id : ℤ) : Prop :=
  ∃ q ∈ s.requests, q.id = id ∧ q.mix.isWrite q.id = true ∧ q.phase.isStore = true

/-- What is cached, or will be, is the row, unless the id has been written and not cached yet. -/
structure Coherent (s : State ρ) : Prop where
  cached : ∀ id v, s.cache (cacheKey id) = some v → v = s.row id ∨ Pending s id
  stores : ∀ p ∈ s.calls, ∀ v, p.phase = .store v → v = s.row p.id
  strays : ∀ p ∈ s.strays, ∀ v, p.phase ≠ .upsert v
  upserts : ∀ p ∈ s.requests, ∀ v, p.phase = .upsert v → p.mix.isWrite p.id = true

omit [DecidableEq ρ] in
theorem mem_others {i : ℕ} {q p : Request ρ} (hq : s.requests[i]? = some q) (hp : p ∈ s.requests) :
    p = q ∨ p ∈ s.requests.eraseIdx i :=
  List.mem_cons.1 ((requests_perm hq).mem_iff.1 hp)

omit [DecidableEq ρ] in
theorem mem_set_of_others {i : ℕ} {q p : Request ρ} (hq : s.requests[i]? = some q) (phase : Phase)
    (hp : p ∈ s.requests.eraseIdx i) : p ∈ s.requests.set i { q with phase := phase } :=
  (set_perm hq phase).mem_iff.2 (List.mem_cons_of_mem _ hp)

omit [DecidableEq ρ] in
theorem mem_set_self {i : ℕ} {q : Request ρ} (hq : s.requests[i]? = some q) (phase : Phase) :
    { q with phase := phase } ∈ s.requests.set i { q with phase := phase } :=
  (set_perm hq phase).mem_iff.2 List.mem_cons_self

theorem quiet_row (hquiet : Quiet s e) (h : step default s e = some s') (hs : Coherent s) (id : ℤ) :
    s'.items id = s.items id ∨
      Pending s' id ∧ ∀ p ∈ s.calls, p.phase.isStore = true → p.id ≠ id := by
  cases happens_of_step h with
  | refused | arrived | expired | began | counted | noted | blamed | answered => exact .inl rfl
  | @called i o q hq hphase =>
    rcases attempt_items s q o id with hsame | ⟨v, hupsert, rfl, hnew⟩
    · exact .inl hsame
    obtain ⟨hlost, hdone⟩ := (hquiet q hq).1 v hupsert
    cases o with
    | failed => exact .inl rfl
    | lost => exact absurd rfl hlost
    | done =>
      refine .inr ⟨⟨{ q with phase := .store v }, ?_, rfl, ?_, rfl⟩, fun p hp hstore => ?_⟩
      · simpa [State.goOn, afterCall, hupsert] using mem_set_self hq (.store v)
      · exact hs.upserts q (List.mem_of_getElem? hq) v hupsert
      · refine hdone rfl p ?_ hstore
        rcases List.mem_append.1 hp with hp | hp
        · rcases mem_others hq hp with rfl | hp
          · rw [hupsert] at hstore
            cases hstore
          · exact List.mem_append_left _ hp
        · exact List.mem_append_right _ hp
  | @abandoned i o q hq hphase =>
    rcases attempt_items s q o id with hsame | ⟨v, hupsert, rfl, hnew⟩
    · exact .inl hsame
    · rw [(hquiet q hq).1 v hupsert]
      exact .inl rfl
  | @landed i q hq =>
    rcases effect_items { s with strays := s.strays.eraseIdx i } q id with hsame | ⟨v, hupsert, -, -⟩
    · exact .inl hsame
    · exact absurd hupsert (hs.strays q (List.mem_of_getElem? hq) v)

/-- A request that is about to cache its row stays, or caches it. -/
theorem quiet_pending (hquiet : Quiet s e) (h : step default s e = some s') (hp : Pending s id) :
    Pending s' id ∨ ∃ p ∈ s.calls, ∃ v, p.phase = .store v ∧ p.id = id ∧
      s'.cache (cacheKey id) = some v := by
  obtain ⟨p, hp, rfl, hwrite, hstore⟩ := hp
  cases happens_of_step h with
  | refused | expired => exact .inl ⟨p, hp, rfl, hwrite, hstore⟩
  | arrived => exact .inl ⟨p, List.mem_append_left _ hp, rfl, hwrite, hstore⟩
  | began hq hphase | counted hq hphase | noted hq hphase | blamed hq hphase =>
    rcases mem_others hq hp with rfl | hp
    · rw [hphase] at hstore
      cases hstore
    · exact .inl ⟨p, mem_set_of_others hq _ hp, rfl, hwrite, hstore⟩
  | answered hq hphase =>
    rcases mem_others hq hp with rfl | hp
    · rw [hphase] at hstore
      cases hstore
    · exact .inl ⟨p, hp, rfl, hwrite, hstore⟩
  | @called i o q hq hphase =>
    rcases mem_others hq hp with rfl | hp
    · cases (hquiet p hq).2 hstore hwrite
      cases hv : p.phase with
      | store v => exact .inr ⟨p, mem_calls_of_request hp, v, hv, rfl, by
          simp [State.attempt, State.goOn, effect, hv]⟩
      | _ => simp [hv, Phase.isStore] at hstore
    · refine .inl ⟨p, ?_, rfl, hwrite, hstore⟩
      rw [State.goOn, attempt_requests]
      exact mem_set_of_others hq _ hp
  | @abandoned i o q hq hphase =>
    rcases mem_others hq hp with rfl | hp
    · rw [(hquiet p hq).2 hstore] at hwrite
      cases hwrite
    · exact .inl ⟨p, hp, rfl, hwrite, hstore⟩
  | landed hq => exact .inl ⟨p, by simpa using hp, rfl, hwrite, hstore⟩

theorem quiet_strays (hquiet : Quiet s e) (h : step default s e = some s') (hs : Coherent s) :
    ∀ p ∈ s'.strays, ∀ v, p.phase ≠ .upsert v := by
  have hattempt : ∀ {i : ℕ} {o : Outcome} {q : Request ρ}, s.requests[i]? = some q →
      (∀ v, q.phase = .upsert v → o ≠ .lost) →
      ∀ p ∈ (s.attempt q o).strays, ∀ v, p.phase ≠ .upsert v := by
    intro i o q hq hlost p hp v
    cases o with
    | done => exact hs.strays p (by simpa [State.attempt] using hp) v
    | failed => exact hs.strays p hp v
    | lost =>
      rcases List.mem_append.1 hp with hp | hp
      · exact hs.strays p hp v
      · rw [List.mem_singleton.1 hp]
        exact fun hv => hlost v hv rfl
  cases happens_of_step h with
  | refused | arrived | expired | began | counted | noted | blamed | answered => exact hs.strays
  | @called i o q hq hphase => exact hattempt hq fun v hv => ((hquiet q hq).1 v hv).1
  | @abandoned i o q hq hphase =>
    refine hattempt hq fun v hv => ?_
    rw [(hquiet q hq).1 v hv]
    simp
  | landed hq =>
    intro p hp
    rw [effect_strays] at hp
    exact hs.strays p (List.mem_of_mem_eraseIdx hp)

theorem coherent_step (hquiet : Quiet s e) (h : step default s e = some s') (hs : Coherent s) :
    Coherent s' := by
  have hrow : ∀ id, s'.row id = s.row id ∨
      Pending s' id ∧ ∀ p ∈ s.calls, p.phase.isStore = true → p.id ≠ id := by
    intro id
    rcases quiet_row hquiet h hs id with hsame | hpending
    · exact .inl (by rw [State.row, hsame, State.row])
    · exact .inr hpending
  refine ⟨?_, ?_, quiet_strays hquiet h hs, ?_⟩
  · intro id v hv
    rcases hrow id with hsame | ⟨hpending, -⟩
    · rw [hsame]
      rcases cache_of_step h (cacheKey id) with hkept | hnone | ⟨q, hq, v', hphase, hkey, hnew⟩
      · rcases hs.cached id v (hkept ▸ hv) with hv' | hpending
        · exact .inl hv'
        · rcases quiet_pending hquiet h hpending with hpending | ⟨p, hp, w, hstore, rfl, hnew⟩
          · exact .inr hpending
          · obtain rfl : w = v := Option.some.inj (hnew.symm.trans hv)
            exact .inl (hs.stores p hp w hstore)
      · rw [hnone] at hv
        cases hv
      · obtain rfl := cacheKey_injective hkey
        obtain rfl : v' = v := Option.some.inj (hnew.symm.trans hv)
        exact .inl (hs.stores q hq v' hphase)
    · exact .inr hpending
  · intro p hp v hv
    cases came_of_step h hp with
    | kept hp =>
      rcases hrow p.id with hsame | ⟨-, hothers⟩
      · rw [hsame]
        exact hs.stores p hp v hv
      · exact absurd rfl (hothers p hp (by rw [hv]; rfl))
    | arrived he hmix hphase => rw [hphase] at hv; cases hv
    | began hq hmix hid hphase =>
      rw [hphase] at hv
      split_ifs at hv
    | went hq hmix hid hupsert hlookup hselect hstore =>
      rw [hid]
      exact (hstore v hv).1.symm
  · intro p hp v hv
    cases came_of_step h (mem_calls_of_request hp) with
    | kept hp =>
      rcases List.mem_append.1 hp with hp | hp
      · exact hs.upserts p hp v hv
      · exact absurd hv (hs.strays p hp v)
    | arrived he hmix hphase => rw [hphase] at hv; cases hv
    | began hq hmix hid hphase =>
      rw [hphase] at hv
      split_ifs at hv with hwrite
      rw [hmix, hid]
      exact hwrite
    | went hq hmix hid hupsert => exact absurd hv (hupsert v)

/-- **When the cache agrees with the table.**  After every run of quiet events that begins with an
empty cache, whatever is cached for an id is its row, as long as no request that has written the id
still has to cache it. -/
theorem quiet_coherent (hcold : Cold s₀) (hquiet : Transition.Allowed (step default) Quiet s₀ es)
    (h : Transition.run (step default) s₀ es = some s)
    (hidle : ∀ q ∈ s.requests, q.id = id → q.mix.isWrite q.id = true → q.phase.isStore = false)
    (hv : s.cache (cacheKey id) = some v) : v = s.row id := by
  have hinit : Coherent s₀ :=
    ⟨fun id v hv => by simp [hcold.cache] at hv, fun p hp => by simp [hcold.calls] at hp,
      fun p hp => by simp [hcold.strays] at hp, fun p hp => by simp [hcold.requests] at hp⟩
  have hend : Coherent s :=
    Transition.run_preserves (fun _ _ _ hok hstep hs => coherent_step hok hstep hs) hquiet h hinit
  rcases hend.cached id v hv with hrow | ⟨q, hq, hid, hwrite, hstore⟩
  · exact hrow
  · rw [hidle q hq hid hwrite] at hstore
    cases hstore

/-- A write of id 5. -/
theorem quiet_coherent_write : ∃ s, Transition.run (step fun _ => .writeHeavy) (State.fresh Unit)
      (alone none (some [53]) [.done, .done, .done]) = some s ∧ "payload-5-0" = s.row 5 := by
  have hrun : Transition.run (step fun _ => .writeHeavy) (State.fresh Unit)
      (alone none (some [53]) [.done, .done, .done]) = some _ := rfl
  have hquiet : Transition.Allowed (step fun _ => .writeHeavy) Quiet (State.fresh Unit)
      (alone none (some [53]) [.done, .done, .done]) := by
    refine Transition.allowed_cons trivial rfl (Transition.allowed_cons ?_ rfl
      (Transition.allowed_cons ?_ rfl (Transition.allowed_cons ?_ rfl trivial)))
    · intro q hq
      cases hq
      exact ⟨nofun, nofun⟩
    · intro q hq
      cases hq
      exact ⟨fun _ _ => ⟨nofun, fun _ p hp => nomatch hp⟩, fun _ _ => rfl⟩
    · intro q hq
      cases hq
      exact ⟨nofun, fun _ _ => rfl⟩
  refine ⟨_, hrun, quiet_coherent ⟨fun _ => rfl, rfl, rfl⟩ hquiet hrun ?_ (by decide)⟩
  intro q hq
  cases hq with
  | head => exact fun _ _ => rfl
  | tail _ hq => cases hq

end Quiet

end Service

end Phase8
