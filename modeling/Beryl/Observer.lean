import Mathlib.Logic.Relation
import Mathlib.Tactic

/-!
# Programs that look at a changing state

A program takes looks at a state that others keep changing; between two looks the state may move
any number of steps.  An outcome of a program is the answer it gives together with the looks it
took: which kind each of them was, and in which state.
-/

namespace Observer

/-- A look of kind `tag` at the state, or the answer. -/
inductive Program (σ τ α : Type) : Type 1
  | done (answer : α)
  | look {β : Type} (tag : τ) (view : σ → β) (next : β → Program σ τ α)

structure Look (σ τ : Type) where
  tag : τ
  state : σ

namespace Program

variable {σ τ α β : Type}

def bind : Program σ τ α → (α → Program σ τ β) → Program σ τ β
  | .done answer, f => f answer
  | .look tag view next, f => .look tag view fun value => (next value).bind f

instance : Monad (Program σ τ) where
  pure := .done
  bind := bind

def view (tag : τ) (f : σ → α) : Program σ τ α := .look tag f .done

@[simp] theorem look_bind {γ : Type} (tag : τ) (g : σ → γ) (next : γ → Program σ τ α)
    (f : α → Program σ τ β) :
    (Program.look tag g next >>= f) = .look tag g fun value => next value >>= f := rfl

/-- What the program answers when its looks are taken in the given states, and what is left of
the states. -/
def runOn : Program σ τ α → List σ → Option (List (Look σ τ) × α)
  | .done answer, _ => some ([], answer)
  | .look _ _ _, [] => none
  | .look tag view next, state :: states =>
    match (next (view state)).runOn states with
    | some (looks, answer) => some (⟨tag, state⟩ :: looks, answer)
    | none => none

end Program

/-- The outcomes of a program that starts in a state which moves by `step`. -/
inductive Outcome {σ τ α : Type} (step : σ → σ → Prop) :
    Program σ τ α → σ → List (Look σ τ) → α → Prop
  | done {answer : α} {s : σ} : Outcome step (.done answer) s [] answer
  | look {β : Type} {tag : τ} {view : σ → β} {next : β → Program σ τ α} {s s' : σ}
      {looks : List (Look σ τ)} {answer : α} (hmoves : Relation.ReflTransGen step s s')
      (hrest : Outcome step (next (view s')) s' looks answer) :
      Outcome step (.look tag view next) s (⟨tag, s'⟩ :: looks) answer

namespace Outcome

variable {σ τ α β : Type} {step : σ → σ → Prop} {p : Program σ τ α} {s : σ}
  {looks : List (Look σ τ)} {answer : α}

theorem chain (h : Outcome step p s looks answer) :
    (s :: looks.map Look.state).Pairwise (Relation.ReflTransGen step) := by
  induction h with
  | done => exact List.pairwise_singleton _ _
  | look hmoves hrest ih =>
    rw [List.map_cons]
    refine List.pairwise_cons.2 ⟨fun state hstate => ?_, ih⟩
    rcases List.mem_cons.1 hstate with rfl | hstate
    · exact hmoves
    · exact hmoves.trans ((List.pairwise_cons.1 ih).1 state hstate)

theorem all_looks {P : σ → Prop} (hstep : ∀ {s s'}, step s s' → P s → P s')
    (h : Outcome step p s looks answer) (hstart : P s) : ∀ look ∈ looks, P look.state := by
  have hreached : ∀ t, Relation.ReflTransGen step s t → P t := by
    intro t hmoves
    induction hmoves with
    | refl => exact hstart
    | tail _ hnext ih => exact hstep hnext ih
  intro look hlook
  exact hreached look.state ((List.pairwise_cons.1 h.chain).1 look.state
    (List.mem_map_of_mem hlook))

/-- An outcome of a sequence is an outcome of its first part, and one of the rest from the last
state that the first part has seen. -/
theorem of_bind {f : α → Program σ τ β} {answer : β} (h : Outcome step (p >>= f) s looks answer) :
    ∃ first rest value s', looks = first ++ rest ∧ Outcome step p s first value ∧
      Outcome step (f value) s' rest answer := by
  induction p generalizing s looks with
  | done value => exact ⟨[], looks, value, s, rfl, .done, h⟩
  | look tag view next ih =>
    rw [Program.look_bind] at h
    cases h with
    | look hmoves hrest =>
      rcases ih _ hrest with ⟨first, rest, value, s'', rfl, hfirst, hlast⟩
      exact ⟨_ :: first, rest, value, s'', rfl, .look hmoves hfirst, hlast⟩

theorem of_runOn {states : List σ}
    (hchain : List.IsChain (Relation.ReflTransGen step) (s :: states))
    (hrun : p.runOn states = some (looks, answer)) : Outcome step p s looks answer := by
  induction p generalizing s states looks with
  | done =>
    simp only [Program.runOn, Option.some.injEq, Prod.mk.injEq] at hrun
    rw [← hrun.1, ← hrun.2]
    exact .done
  | look tag view next ih =>
    cases states with
    | nil => cases hrun
    | cons state states =>
      simp only [Program.runOn] at hrun
      rcases hnext : (next (view state)).runOn states with _ | ⟨rest, value⟩
      · rw [hnext] at hrun
        cases hrun
      · rw [hnext] at hrun
        simp only [Option.some.injEq, Prod.mk.injEq] at hrun
        rw [← hrun.1]
        rw [hrun.2] at hnext
        rcases List.isChain_cons_cons.1 hchain with ⟨hmoves, hchain⟩
        exact .look hmoves (ih _ hchain hnext)

end Outcome

section Sequence

variable {σ τ ε α β : Type} {step : σ → σ → Prop} {s : σ} {looks : List (Look σ τ)}
  {answer : Except ε β}

/-- A sequence goes on after its first part, or has ended with the error of it. -/
theorem sequence_cases {x : ExceptT ε (Program σ τ) α} {f : α → ExceptT ε (Program σ τ) β}
    (h : Outcome step (x >>= f).run s looks answer) :
    (∃ first rest value s', looks = first ++ rest ∧ Outcome step x.run s first (.ok value) ∧
        Outcome step (f value).run s' rest answer) ∨
      ∃ error, answer = .error error ∧ Outcome step x.run s looks (.error error) := by
  obtain ⟨first, rest, result, s', rfl, hfirst, hrest⟩ := Outcome.of_bind h
  cases result with
  | ok value => exact .inl ⟨first, rest, value, s', rfl, hfirst, hrest⟩
  | error error =>
    cases hrest
    rw [List.append_nil]
    exact .inr ⟨error, rfl, hfirst⟩

/-- What comes after a look that cannot fail depends on it only through what it has seen. -/
theorem view_look {tag : τ} {view : σ → α} {next : α → ExceptT ε (Program σ τ) β}
    (h : Outcome step ((ExceptT.lift (Program.view tag view) : ExceptT ε (Program σ τ) α) >>=
      next).run s looks answer) :
    ∃ m rest, looks = ⟨tag, m⟩ :: rest ∧ Outcome step (next (view m)).run m rest answer := by
  have hlook : Outcome step (.look tag view fun value => (next value).run) s looks answer := h
  cases hlook with
  | look hmoves hrest => exact ⟨_, _, rfl, hrest⟩

end Sequence

/-- Whatever a program takes its looks at, as long as `K` holds in each of them: when it
succeeds, its looks and its value satisfy `Q`. -/
def Yields {σ τ ε α : Type} (step : σ → σ → Prop) (K : σ → Prop)
    (x : ExceptT ε (Program σ τ) α) (Q : List (Look σ τ) → α → Prop) : Prop :=
  ∀ s looks value, Outcome step x.run s looks (.ok value) → (∀ look ∈ looks, K look.state) →
    Q looks value

namespace Yields

variable {σ τ ε α β : Type} {step : σ → σ → Prop} {K : σ → Prop} {x : ExceptT ε (Program σ τ) α}
  {f : α → ExceptT ε (Program σ τ) β} {Q : List (Look σ τ) → α → Prop}

theorem bind {R : List (Look σ τ) → β → Prop} (hx : Yields step K x Q)
    (hf : ∀ first value, Q first value →
      Yields step K (f value) fun rest answer => R (first ++ rest) answer) :
    Yields step K (x >>= f) R := by
  intro s looks answer houtcome hknown
  obtain ⟨first, rest, value, s', rfl, hfirst, hrest⟩ | ⟨error, hnone, -⟩ := sequence_cases houtcome
  swap
  · cases hnone
  have hvalue := hx s first value hfirst fun look hlook =>
    hknown look (List.mem_append_left _ hlook)
  exact hf first value hvalue s' rest answer hrest fun look hlook =>
    hknown look (List.mem_append_right _ hlook)

theorem mono {Q R : List (Look σ τ) → α → Prop}
    (hx : Yields step K x Q) (himp : ∀ looks value, Q looks value → R looks value) :
    Yields step K x R :=
  fun s looks value houtcome hknown => himp looks value (hx s looks value houtcome hknown)

theorem throw {error : ε} : Yields step K (throwThe ε error : ExceptT ε (Program σ τ) α) Q := by
  intro s looks value houtcome _
  cases houtcome

end Yields

end Observer
