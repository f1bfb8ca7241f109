import Mathlib.Tactic

/-!
# Fallible computations over a state

A `Transaction` reads and writes a state and either returns a value or fails;
when it fails, the state it had reached is kept.  Whether a failure leaves the
state as it was is therefore a property to be proved, not one of the type.

`Ensures x s ok err` says what a run of `x` from `s` ends in.  Its rules follow
the shape of the program, so a proof about a straight-line function reads like
the function: one line for each read, each early return and each write.
-/

/-- A computation over `σ` that returns an `α` or fails with an `ε`. -/
def Transaction (σ ε α : Type) : Type := σ → Except ε α × σ

namespace Transaction

variable {σ ε ε' α β : Type}

instance : Monad (Transaction σ ε) where
  pure value := fun state => (.ok value, state)
  bind x f := fun state =>
    match x state with
    | (.ok value, state') => f value state'
    | (.error failure, state') => (.error failure, state')

def fail (failure : ε) : Transaction σ ε α :=
  fun state => (.error failure, state)

def lift : Except ε α → Transaction σ ε α
  | .ok value => pure value
  | .error failure => fail failure

/-- The early return `if condition { return Err(failure) }`. -/
def failIf (condition : Prop) [Decidable condition] (failure : ε) :
    Transaction σ ε Unit :=
  if condition then fail failure else pure ()

/-- The unwrapping `value.ok_or_else(failure)?`. -/
def okOr (value : Option α) (failure : ε) : Transaction σ ε α :=
  match value with
  | some value => pure value
  | none => fail failure

def current : Transaction σ ε σ := fun state => (.ok state, state)

def update (f : σ → σ) : Transaction σ ε Unit :=
  fun state => (.ok (), f state)

def attempt (x : Transaction σ ε α) : Transaction σ ε' (Except ε α) :=
  fun state => (.ok (x state).1, (x state).2)

/-- The translation `x.map_err(f)`. -/
def mapFailure (f : ε → ε') (x : Transaction σ ε α) : Transaction σ ε' α := fun state =>
  match x state with
  | (.ok value, state') => (.ok value, state')
  | (.error failure, state') => (.error (f failure), state')

/-- A run of `x` from `state` returns with `ok`, or fails with `err`. -/
def Ensures (x : Transaction σ ε α) (state : σ)
    (ok : α → σ → Prop) (err : ε → σ → Prop) : Prop :=
  match x state with
  | (.ok value, state') => ok value state'
  | (.error failure, state') => err failure state'

variable {ok ok' : α → σ → Prop} {err err' : ε → σ → Prop} {state state' : σ} {value : α}
  {x : Transaction σ ε α}

theorem Ensures.of_ok (h : Ensures x state ok err) (hrun : x state = (.ok value, state')) :
    ok value state' := by
  unfold Ensures at h
  rw [hrun] at h
  exact h

variable {failure : ε}

theorem Ensures.of_error (h : Ensures x state ok err) (hrun : x state = (.error failure, state')) :
    err failure state' := by
  unfold Ensures at h
  rw [hrun] at h
  exact h

theorem Ensures.mono (h : Ensures x state ok err)
    (hok : ∀ value state', ok value state' → ok' value state')
    (herr : ∀ failure state', err failure state' → err' failure state') :
    Ensures x state ok' err' := by
  unfold Ensures at h ⊢
  split at h
  · exact hok _ _ h
  · exact herr _ _ h

theorem Ensures.and (h : Ensures x state ok err)
    (h' : Ensures x state ok' err') :
    Ensures x state (fun value state' => ok value state' ∧ ok' value state')
      (fun failure state' => err failure state' ∧ err' failure state') := by
  unfold Ensures at h h' ⊢
  rcases hrun : x state with ⟨failure | value, state'⟩ <;> rw [hrun] at h h' <;> exact ⟨h, h'⟩

theorem ensures_pure (h : ok value state) :
    Ensures (pure value : Transaction σ ε α) state ok err := h

theorem ensures_fail (h : err failure state) :
    Ensures (fail failure : Transaction σ ε α) state ok err := h

theorem ensures_update {f : σ → σ} {ok : Unit → σ → Prop} (h : ok () (f state)) :
    Ensures (update f : Transaction σ ε Unit) state ok err := h

theorem ensures_current {ok : σ → σ → Prop} (h : ok state state) :
    Ensures (current : Transaction σ ε σ) state ok err := h

variable {f : β → Transaction σ ε α} {x : Transaction σ ε β}

theorem ensures_bind
    (h : Ensures x state (fun value state' => Ensures (f value) state' ok err) err) :
    Ensures (x >>= f) state ok err := by
  unfold Ensures at h ⊢
  rcases hrun : x state with ⟨failure | value, state'⟩ <;> simp only [bind, hrun] at h ⊢ <;> exact h

theorem ensures_read {f : σ → Transaction σ ε α} (h : Ensures (f state) state ok err) :
    Ensures (current >>= f) state ok err := ensures_bind h

theorem ensures_write {g : σ → σ} {f : Unit → Transaction σ ε α}
    (h : Ensures (f ()) (g state) ok err) : Ensures (update g >>= f) state ok err := ensures_bind h

theorem ensures_map {g : β → α} (h : Ensures x state (fun value => ok (g value)) err) :
    Ensures (x >>= fun value => pure (g value)) state ok err :=
  ensures_bind (h.mono (fun _ _ hok => ensures_pure hok) fun _ _ herr => herr)

theorem ensures_lift {result : Except ε α}
    (herr : ∀ failure, result = .error failure → err failure state)
    (hok : ∀ value, result = .ok value → ok value state) : Ensures (lift result) state ok err := by
  cases result with
  | error failure => exact herr failure rfl
  | ok value => exact hok value rfl

variable {condition : Prop}

theorem ensures_failIf [Decidable condition] {ok : Unit → σ → Prop}
    (herr : condition → err failure state) (hok : ¬condition → ok () state) :
    Ensures (failIf condition failure) state ok err := by
  unfold failIf
  split
  next h => exact herr h
  next h => exact hok h

theorem ensures_okOr {value : Option α} (herr : value = none → err failure state)
    (hok : ∀ result, value = some result → ok result state) :
    Ensures (okOr value failure) state ok err := by
  cases value with
  | none => exact herr rfl
  | some result => exact hok result rfl

theorem ensures_attempt {x : Transaction σ ε α} {err : ε' → σ → Prop} {ok : Except ε α → σ → Prop}
    (h : Ensures x state (fun value => ok (.ok value)) (fun failure => ok (.error failure))) :
    Ensures (attempt x : Transaction σ ε' (Except ε α)) state ok err := by
  unfold Ensures at h ⊢
  simp only [attempt]
  split at h
  next value state' hrun =>
    simp only [hrun]
    exact h
  next failure state' hrun =>
    simp only [hrun]
    exact h

theorem ensures_mapFailure {f : ε' → ε} {x : Transaction σ ε' α}
    (h : Ensures x state ok fun failure state' => err (f failure) state') :
    Ensures (mapFailure f x) state ok err := by
  unfold Ensures at h ⊢
  unfold mapFailure
  rcases hrun : x state with ⟨failure | value, state'⟩
  · rw [hrun] at h
    exact h
  · rw [hrun] at h
    exact h

theorem bind_of_ok {value : β} (hx : x state = (.ok value, state')) :
    (x >>= f) state = f value state' := by
  simp only [bind, hx]

theorem ensures_bind_of_ok {value : β} (hx : x state = (.ok value, state'))
    (h : Ensures (f value) state' ok err) : Ensures (x >>= f) state ok err := by
  unfold Ensures at h ⊢
  rw [bind_of_ok hx]
  exact h

theorem bind_eq_ok (h : (x >>= f) state = (.ok value, state')) :
    ∃ mid between, x state = (.ok mid, between) ∧ f mid between = (.ok value, state') := by
  simp only [bind] at h
  rcases hx : x state with ⟨failure | mid, between⟩
  · rw [hx] at h
    cases h
  · rw [hx] at h
    exact ⟨mid, between, rfl, h⟩

theorem failIf_bind_eq_ok [Decidable condition] {f : Unit → Transaction σ ε α}
    (h : (failIf condition failure >>= f) state = (.ok value, state')) :
    ¬condition ∧ f () state = (.ok value, state') := by
  unfold failIf at h
  split at h
  · cases h
  next hcondition => exact ⟨hcondition, h⟩

theorem bind_eq_ok_iff : (x >>= f) state = (.ok value, state') ↔
      ∃ mid between, x state = (.ok mid, between) ∧ f mid between = (.ok value, state') :=
  ⟨bind_eq_ok, fun ⟨_, _, hx, hf⟩ => (bind_of_ok hx).trans hf⟩

theorem failIf_bind_eq_ok_iff [Decidable condition] {f : Unit → Transaction σ ε α} :
    (failIf condition failure >>= f) state = (.ok value, state') ↔
      ¬condition ∧ f () state = (.ok value, state') := by
  refine ⟨failIf_bind_eq_ok, fun ⟨hcondition, hf⟩ => ?_⟩
  unfold failIf
  rw [if_neg hcondition]
  exact hf

theorem okOr_bind_eq_ok_iff {found : Option β} :
    (okOr found failure >>= f) state = (.ok value, state') ↔
      ∃ result, found = some result ∧ f result state = (.ok value, state') := by
  cases found with
  | none => simp [okOr, bind, fail]
  | some => simp [okOr, bind, pure]

variable {result : Except ε β}

theorem okOr_bind_of_some {option : Option β} {value : β} (hsome : option = some value)
    (h : Ensures (f value) state ok err) : Ensures (okOr option failure >>= f) state ok err := by
  rw [hsome]
  exact h

theorem lift_bind_eq_ok_iff : (lift result >>= f) state = (.ok value, state') ↔
      ∃ found, result = .ok found ∧ f found state = (.ok value, state') := by
  cases result with
  | error => simp [lift, bind, fail]
  | ok => simp [lift, bind, pure]

theorem bind_fst_eq_ok_iff : ((x >>= f) state).1 = .ok value ↔
      ∃ mid between, x state = (.ok mid, between) ∧ (f mid between).1 = .ok value := by
  rcases hx : x state with ⟨failure | mid, between⟩
  · simp [bind, hx]
  · simp [bind, hx]

theorem current_bind {f : σ → Transaction σ ε α} :
    ((current : Transaction σ ε σ) >>= f) state = f state state := rfl

theorem update_bind {g : σ → σ} {f : Unit → Transaction σ ε α} :
    (update g >>= f) state = f () (g state) := rfl

theorem failIf_bind [Decidable condition] {f : Unit → Transaction σ ε α}
    (herr : condition → err failure state) (hok : ¬condition → Ensures (f ()) state ok err) :
    Ensures (failIf condition failure >>= f) state ok err :=
  ensures_bind (ensures_failIf herr hok)

theorem okOr_bind {value : Option β} (herr : value = none → err failure state)
    (hok : ∀ result, value = some result → Ensures (f result) state ok err) :
    Ensures (okOr value failure >>= f) state ok err :=
  ensures_bind (ensures_okOr herr hok)

theorem lift_bind (herr : ∀ failure, result = .error failure → err failure state)
    (hok : ∀ value, result = .ok value → Ensures (f value) state ok err) :
    Ensures (lift result >>= f) state ok err :=
  ensures_bind (ensures_lift herr hok)

/-- Verify a called computation by its own specification, then go on from
whatever that specification leaves. -/
theorem Ensures.bind {mid : β → σ → Prop} {fault : ε → σ → Prop} (h : Ensures x state mid fault)
    (herr : ∀ failure state', fault failure state' → err failure state')
    (hok : ∀ value state', mid value state' → Ensures (f value) state' ok err) :
    Ensures (x >>= f) state ok err :=
  ensures_bind (h.mono hok herr)

end Transaction
