import Beryl.Forest

/-!
# Tearing down detached trees

What lies below a detached node is doomed.  It is torn down in small steps: a leaf
under a detached node is removed, a branch under one is detached itself, and a
detached node without entries is retired.  `Sheds` is what any number of such steps
amounts to: only doomed nodes and entries go, and what is left of them stays doomed.
When no detached node is left, exactly the doomed part is gone.
-/

namespace Forest

variable {N L : Type*} {F F' F'' : Forest N L}

/-- `i` is below a detached node. -/
def Doomed (F : Forest N L) (i : N) : Prop := ∃ r, F.detached r ∧ F.Below r i

variable {i p c a : N} {l : L}

theorem Doomed.of_detached (h : F.detached i) : F.Doomed i := ⟨i, h, .refl⟩

theorem Doomed.child (h : F.Doomed p) (hentry : F.child p l = some c) : F.Doomed c := by
  obtain ⟨r, hr, hbelow⟩ := h
  exact ⟨r, hr, hbelow.tail ⟨l, hentry⟩⟩

theorem WellFormed.not_doomed_of_mounted (h : F.WellFormed) (hi : F.Mounted i) : ¬F.Doomed i := by
  rintro ⟨d, hd, hdi⟩
  obtain ⟨r, hr, hri⟩ := hi
  rcases Relation.ReflTransGen.cases_tail (h.below_of_anchor (.inl hr) hri hdi) with
    rfl | ⟨b, _, hb⟩
  · exact h.root_not_detached hr hd
  · exact h.anchor_no_edge (.inr hd) hb

/-- `F'` is `F` without some of its doomed nodes and entries. -/
structure Sheds (F F' : Forest N L) : Prop where
  root_eq : F'.root = F.root
  child_of : ∀ {p l c}, F'.child p l = some c → F.child p l = some c
  kind_of : ∀ {i kind}, F'.kind i = some kind → F.kind i = some kind
  child_kept : ∀ {p}, ¬F.Doomed p → F'.child p = F.child p
  kind_kept : ∀ {i}, ¬F.Doomed i → F'.kind i = F.kind i
  doomed_of : ∀ {i}, F'.Doomed i → F.Doomed i
  doomed_left : ∀ {i}, F.Doomed i → F'.kind i ≠ none → F'.Doomed i

theorem Sheds.refl (F : Forest N L) : F.Sheds F where
  root_eq := rfl
  child_of h := h
  kind_of h := h
  child_kept _ := rfl
  kind_kept _ := rfl
  doomed_of h := h
  doomed_left h _ := h

theorem Sheds.trans (h : F.Sheds F') (h' : F'.Sheds F'') : F.Sheds F'' where
  root_eq := h'.root_eq.trans h.root_eq
  child_of hentry := h.child_of (h'.child_of hentry)
  kind_of hkind := h.kind_of (h'.kind_of hkind)
  child_kept hp := (h'.child_kept fun hdoomed => hp (h.doomed_of hdoomed)).trans
    (h.child_kept hp)
  kind_kept hi := (h'.kind_kept fun hdoomed => hi (h.doomed_of hdoomed)).trans
    (h.kind_kept hi)
  doomed_of hi := h.doomed_of (h'.doomed_of hi)
  doomed_left {i} hi hleft := by
    obtain ⟨kind, hkind⟩ := Option.ne_none_iff_exists'.1 hleft
    refine h'.doomed_left (h.doomed_left hi ?_) hleft
    rw [h'.kind_of hkind]
    exact Option.some_ne_none _

theorem Sheds.below_of (h : F.Sheds F') {b : N} (hbelow : F'.Below a b) : F.Below a b := by
  refine .mono ?_ _ _ hbelow
  rintro a b ⟨l, hl⟩
  exact ⟨l, h.child_of hl⟩

theorem Sheds.finished (h : F.Sheds F') (hwf : F'.WellFormed) (hnone : ∀ i, ¬F'.detached i) :
    (∀ i, F.Doomed i → F'.kind i = none ∧ ∀ l, F'.child i l = none) ∧
    ∀ i, ¬F.Doomed i → F'.kind i = F.kind i ∧ F'.child i = F.child i := by
  have hkind : ∀ i, F.Doomed i → F'.kind i = none := by
    intro i hi
    by_contra hleft
    obtain ⟨r, hr, _⟩ := h.doomed_left hi hleft
    exact hnone r hr
  refine ⟨fun i hi => ⟨hkind i hi, fun l => ?_⟩, fun i hi => ⟨h.kind_kept hi, h.child_kept hi⟩⟩
  cases hentry : F'.child i l with
  | none => rfl
  | some =>
    have hbranch := hwf.parent_branch hentry
    rw [hkind i hi] at hbranch
    cases hbranch

theorem WellFormed.leaf_empty (h : F.WellFormed) (hleaf : F.kind c = some .leaf) (m : L) :
    F.child c m = none := by
  cases hentry : F.child c m with
  | none => rfl
  | some =>
    have hbranch := h.parent_branch hentry
    rw [hleaf] at hbranch
    cases hbranch

theorem eq_of_below_of_empty (hempty : ∀ m, F.child c m = none) (hbelow : F.Below c i) : i = c := by
  rcases Relation.ReflTransGen.cases_head hbelow with rfl | ⟨b, ⟨m, hm⟩, _⟩
  · rfl
  · rw [hempty] at hm
    cases hm

variable [DecidableEq N] [DecidableEq L]

inductive Tear : Forest N L → Forest N L → Prop
  | remove {F : Forest N L} {p c : N} {l : L} (hparent : F.detached p)
      (hentry : F.child p l = some c) (hleaf : F.kind c = some .leaf) :
      Tear F (F.remove p l c)
  | detach {F : Forest N L} {p c : N} {l : L} (hparent : F.detached p)
      (hentry : F.child p l = some c) (hbranch : F.kind c = some .branch) :
      Tear F (F.detach p l c)
  | retire {F : Forest N L} {c : N} (hdetached : F.detached c)
      (hempty : ∀ m, F.child c m = none) : Tear F (F.retire c)

theorem Tear.step {mayMove : Forest N L → N → N → Prop} (h : F.Tear F')
    (hwf : F.WellFormed) : Step mayMove F F' := by
  cases h with
  | remove _ hentry hleaf => exact .remove hentry (hwf.leaf_empty hleaf)
  | detach _ hentry hbranch => exact .detach hentry hbranch
  | retire hdetached hempty => exact .retire hdetached hempty

theorem below_setChild (hentry : F.child p l = some c) (hbelow : F.Below a i) :
    (F.setChild p l none).Below a i ∨ (F.setChild p l none).Below c i := by
  induction hbelow using Relation.ReflTransGen.head_induction_on with
  | refl => exact .inl .refl
  | @head a b hedge _ ih =>
    obtain ⟨m, hm⟩ := hedge
    rcases ih with hb | hc
    · by_cases hcut : a = p ∧ m = l
      · rw [hcut.1, hcut.2, hentry] at hm
        cases hm
        exact .inr hb
      · exact .inl (.head ⟨m, by simp [setChild, hcut, hm]⟩ hb)
    · exact .inr hc

theorem child_of_setChild {q d : N} {m : L} (h : (F.setChild p l none).child q m = some d) :
    F.child q m = some d := by
  simp only [setChild] at h
  split at h
  · cases h
  · exact h

theorem below_of_setChild (hbelow : (F.setChild p l none).Below a i) : F.Below a i := by
  refine .mono ?_ _ _ hbelow
  rintro a b ⟨m, hm⟩
  exact ⟨m, child_of_setChild hm⟩

theorem child_setChild_of_ne {q : N} (h : q ≠ p) : (F.setChild p l none).child q = F.child q := by
  funext m
  simp [setChild, h]

theorem Tear.sheds (h : F.Tear F') (hwf : F.WellFormed) : F.Sheds F' := by
  cases h with
  | @remove p c l hparent hentry hleaf =>
    have hp : F.Doomed p := .of_detached hparent
    have hempty : ∀ m, (F.setChild p l none).child c m = none := by
      intro m
      have hnone := hwf.leaf_empty hleaf m
      simp [setChild, hnone]
    refine ⟨rfl, child_of_setChild, ?_, ?_, ?_, ?_, ?_⟩
    · intro i kind hkind
      simp only [Forest.remove, setChild, setKind] at hkind
      split at hkind
      · cases hkind
      · exact hkind
    · exact fun hq => child_setChild_of_ne fun heq => hq (heq ▸ hp)
    · intro i hi
      refine if_neg fun heq => hi ?_
      rw [heq]
      exact hp.child hentry
    · rintro i ⟨r, hr, hbelow⟩
      exact ⟨r, hr, below_of_setChild hbelow⟩
    · rintro i ⟨r, hr, hbelow⟩ hleft
      rcases below_setChild hentry hbelow with hkept | hcut
      · exact ⟨r, hr, hkept⟩
      · rw [eq_of_below_of_empty hempty hcut] at hleft
        exact absurd (if_pos rfl) hleft
  | @detach p c l hparent hentry hbranch =>
    have hp : F.Doomed p := .of_detached hparent
    refine ⟨rfl, child_of_setChild, fun h => h, ?_, fun _ => rfl, ?_, ?_⟩
    · exact fun hq => child_setChild_of_ne fun heq => hq (heq ▸ hp)
    · rintro i ⟨r, rfl | hr, hbelow⟩
      · obtain ⟨d, hd, hbelow'⟩ := hp.child hentry
        exact ⟨d, hd, hbelow'.trans (below_of_setChild hbelow)⟩
      · exact ⟨r, hr, below_of_setChild hbelow⟩
    · rintro i ⟨r, hr, hbelow⟩ _
      rcases below_setChild hentry hbelow with hkept | hcut
      · exact ⟨r, .inr hr, hkept⟩
      · exact ⟨c, .inl rfl, hcut⟩
  | @retire c hdetached hempty =>
    have hc : F.Doomed c := .of_detached hdetached
    refine ⟨rfl, fun h => h, ?_, fun _ => rfl, ?_, ?_, ?_⟩
    · intro i kind hkind
      simp only [Forest.retire, unmark, setKind] at hkind
      split at hkind
      · cases hkind
      · exact hkind
    · intro i hi
      refine if_neg fun heq => hi ?_
      rw [heq]
      exact hc
    · rintro i ⟨r, hr, hbelow⟩
      exact ⟨r, hr.2, hbelow⟩
    · rintro i ⟨r, hr, hbelow⟩ hleft
      by_cases hrc : r = c
      · subst hrc
        rw [eq_of_below_of_empty hempty hbelow] at hleft
        exact absurd (if_pos rfl) hleft
      · exact ⟨r, ⟨hrc, hr⟩, hbelow⟩

abbrev Tears : Forest N L → Forest N L → Prop := Relation.ReflTransGen Tear

theorem Tears.steps {mayMove : Forest N L → N → N → Prop} (h : F.Tears F')
    (hwf : F.WellFormed) : Steps mayMove F F' := by
  induction h with
  | refl => exact .refl
  | tail _ htear ih => exact ih.tail (htear.step (hwf.steps ih))

theorem Tears.sheds (h : F.Tears F') (hwf : F.WellFormed) : F.Sheds F' := by
  induction h with
  | refl => exact .refl F
  | tail hbefore htear ih =>
    have hsteps : Steps (fun _ _ _ => True) F _ := Tears.steps hbefore hwf
    exact ih.trans (htear.sheds (hwf.steps hsteps))

end Forest
