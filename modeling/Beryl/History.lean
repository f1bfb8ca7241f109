import Mathlib.Tactic

/-!
# Runs of a labelled system

A run is the list of its transitions, newest first, together with the state it
has reached.  Which labels may be taken is a predicate on the whole run so far,
so a label can be tied to any earlier state of the same run.
-/

namespace History

structure Transition (σ τ : Type*) where
  before : σ
  label : τ
  after : σ

variable {σ τ : Type*}

/-- The states of a run that has reached `s`, newest first. -/
def visited (past : List (Transition σ τ)) (s : σ) : List σ :=
  s :: past.map Transition.before

theorem self_mem_visited {past : List (Transition σ τ)} {s : σ} :
    s ∈ visited past s := List.mem_cons_self

/-- The runs from `start` whose labels are admitted. -/
inductive Run (step : σ → τ → σ → Prop)
    (admits : List (Transition σ τ) → σ → τ → Prop) (start : σ) :
    List (Transition σ τ) → σ → Prop
  | start : Run step admits start [] start
  | next {past : List (Transition σ τ)} {s s' : σ} {label : τ}
      (hrun : Run step admits start past s) (hadmits : admits past s label)
      (hstep : step s label s') :
      Run step admits start (⟨s, label, s'⟩ :: past) s'

namespace Run

variable {step : σ → τ → σ → Prop} {admits : List (Transition σ τ) → σ → τ → Prop}
  {start s : σ} {past : List (Transition σ τ)} {t : Transition σ τ}

section

variable (hrun : Run step admits start past s)
include hrun

theorem invariant {P : σ → Prop} (hstart : P start)
    (hstep : ∀ {past s label s'}, Run step admits start past s → P s →
      admits past s label → step s label s' → P s') : P s := by
  induction hrun with
  | start => exact hstart
  | next hrun hadmits hnext ih => exact hstep hrun ih hadmits hnext

theorem mono {admits' : List (Transition σ τ) → σ → τ → Prop}
    (himp : ∀ {past s label}, Run step admits start past s → admits past s label →
      admits' past s label) : Run step admits' start past s := by
  induction hrun with
  | start => exact .start
  | next hrun hadmits hnext ih => exact .next ih (himp hrun hadmits) hnext

theorem of_mem_visited {t : σ}
    (ht : t ∈ visited past s) : ∃ earlier, Run step admits start earlier t := by
  induction hrun with
  | start =>
    rw [List.mem_singleton.1 ht]
    exact ⟨[], .start⟩
  | next hrun hadmits hnext ih =>
    rcases List.mem_cons.1 ht with rfl | ht
    · exact ⟨_, .next hrun hadmits hnext⟩
    · exact ih ht

/-- A preorder that contains every step relates every earlier state to `s`. -/
theorem relates {R : σ → σ → Prop} {t : σ}
    (hrefl : ∀ s, R s s) (htrans : ∀ {a b c}, R a b → R b c → R a c)
    (hstep : ∀ {past s label s'}, Run step admits start past s →
      admits past s label → step s label s' → R s s') (ht : t ∈ visited past s) : R t s := by
  induction hrun with
  | start =>
    rw [List.mem_singleton.1 ht]
    exact hrefl _
  | next hrun hadmits hnext ih =>
    rcases List.mem_cons.1 ht with rfl | ht
    · exact hrefl _
    · exact htrans (ih ht) (hstep hrun hadmits hnext)

theorem pairwise {R : σ → σ → Prop}
    (hrelates : ∀ {past s t}, Run step admits start past s → t ∈ visited past s → R t s) :
    (visited past s).Pairwise fun later earlier => R earlier later := by
  induction hrun with
  | start => exact List.pairwise_singleton _ _
  | next hrun hadmits hnext ih =>
    refine List.pairwise_cons.2 ⟨fun earlier hearlier => ?_, ih⟩
    exact hrelates (.next hrun hadmits hnext) (List.mem_cons_of_mem _ hearlier)

theorem of_mem (ht : t ∈ past) : ∃ older, Run step admits start older t.before ∧
      admits older t.before t.label ∧ step t.before t.label t.after := by
  induction hrun with
  | start => cases ht
  | next hrun hadmits hnext ih =>
    rcases List.mem_cons.1 ht with rfl | ht
    · exact ⟨_, hrun, hadmits, hnext⟩
    · exact ih ht

theorem after_mem_visited (ht : t ∈ past) : t.after ∈ visited past s := by
  induction hrun with
  | start => cases ht
  | next hrun hadmits hnext ih =>
    rcases List.mem_cons.1 ht with rfl | ht
    · exact self_mem_visited
    · exact List.mem_cons_of_mem _ (ih ht)

theorem pairwise_past {R : Transition σ τ → Transition σ τ → Prop}
    (hrelates : ∀ {past s label s'}, Run step admits start past s →
      admits past s label → step s label s' → ∀ earlier ∈ past, R ⟨s, label, s'⟩ earlier) :
    past.Pairwise R := by
  induction hrun with
  | start => exact .nil
  | next hrun hadmits hnext ih =>
    exact List.pairwise_cons.2 ⟨hrelates hrun hadmits hnext, ih⟩

end

/-- What holds after one transition and is kept by every later one holds at the
end of the run. -/
theorem since {P : σ → Prop} {newer older : List (Transition σ τ)}
    (hrun : Run step admits start (newer ++ t :: older) s) (hafter : P t.after)
    (hstep : ∀ u ∈ newer, ∀ {past}, Run step admits start past u.before →
      P u.before → step u.before u.label u.after → P u.after) : P s := by
  induction newer generalizing s with
  | nil =>
    cases hrun
    exact hafter
  | cons u newer ih =>
    cases hrun with
    | next hrun hadmits hnext =>
      have hbefore := ih hrun fun v hv => hstep v (List.mem_cons_of_mem _ hv)
      exact hstep _ List.mem_cons_self hrun hbefore hnext

end Run

end History
