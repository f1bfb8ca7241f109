import Mathlib.Data.Fintype.Card
import Mathlib.Logic.Relation
import Mathlib.Order.WellFounded
import Mathlib.Tactic

/-!
# Forests of named entries

A forest has nodes, entries that name a child under a parent, permanent roots,
and nodes that have been detached.  Five operations change it: a node is created
under a parent, a node without children is removed, a branch is detached, an
entry is moved, and a detached node without children is retired.

`WellFormed` is what all five keep.  A move may still hang a node below itself;
`Anchored`, that every node is below a root or a detached node, needs each move
to go to a place that is not below the moved node.  In a well-formed forest it
excludes cycles.
-/

inductive NodeKind
  | leaf
  | branch
deriving DecidableEq, Repr

@[ext]
structure Forest (N L : Type*) where
  kind : N → Option NodeKind
  child : N → L → Option N
  root : N → Prop
  detached : N → Prop

namespace Forest

variable {N L : Type*}

/-- Entries join existing nodes, one per child, from branches; a root or a
detached node is a branch without an entry, and every other node has one. -/
structure WellFormed (F : Forest N L) : Prop where
  child_exists : ∀ {p l c}, F.child p l = some c → F.kind c ≠ none
  parent_branch : ∀ {p l c}, F.child p l = some c → F.kind p = some .branch
  entry_unique : ∀ {p l q m c}, F.child p l = some c → F.child q m = some c →
    p = q ∧ l = m
  root_branch : ∀ {i}, F.root i → F.kind i = some .branch
  detached_branch : ∀ {i}, F.detached i → F.kind i = some .branch
  child_not_root : ∀ {p l c}, F.child p l = some c → ¬F.root c
  child_not_detached : ∀ {p l c}, F.child p l = some c → ¬F.detached c
  root_not_detached : ∀ {i}, F.root i → ¬F.detached i
  placed : ∀ {i}, F.kind i ≠ none →
    F.root i ∨ F.detached i ∨ ∃ p l, F.child p l = some i

/-! ## Operations -/

section Operations

variable [DecidableEq N] [DecidableEq L]

def setKind (F : Forest N L) (i : N) (kind : Option NodeKind) : Forest N L :=
  { F with kind := fun j => if j = i then kind else F.kind j }

def setChild (F : Forest N L) (p : N) (l : L) (c : Option N) : Forest N L :=
  { F with child := fun q m => if q = p ∧ m = l then c else F.child q m }

/-- Enter `c` among the detached nodes. -/
def mark (F : Forest N L) (c : N) : Forest N L :=
  { F with detached := fun i => i = c ∨ F.detached i }

/-- Strike `c` from the detached nodes. -/
def unmark (F : Forest N L) (c : N) : Forest N L :=
  { F with detached := fun i => i ≠ c ∧ F.detached i }

def create (F : Forest N L) (p : N) (l : L) (c : N) (kind : NodeKind) : Forest N L :=
  (F.setKind c (some kind)).setChild p l (some c)

def remove (F : Forest N L) (p : N) (l : L) (c : N) : Forest N L :=
  (F.setKind c none).setChild p l none

def detach (F : Forest N L) (p : N) (l : L) (c : N) : Forest N L :=
  (F.setChild p l none).mark c

def move (F : Forest N L) (p : N) (l : L) (q : N) (m : L) (c : N) : Forest N L :=
  (F.setChild p l none).setChild q m (some c)

def retire (F : Forest N L) (c : N) : Forest N L :=
  (F.setKind c none).unmark c

variable {F F' : Forest N L} {mayMove : Forest N L → N → N → Prop}

omit [DecidableEq L] in
theorem setKind_self {i : N} {kind : Option NodeKind} (h : F.kind i = kind) :
    F.setKind i kind = F := by
  ext j k
  · simp only [setKind]
    split
    next heq => rw [heq, h]
    next => rfl
  all_goals rfl

theorem setChild_self {p : N} {l : L} {c d : Option N} (h : F.child p l = d) :
    (F.setChild p l c).setChild p l d = F := by
  ext q m k
  · rfl
  · simp only [setChild]
    split
    next heq => rw [heq.1, heq.2, h]
    next => rfl
  all_goals rfl

/-- One operation.  `mayMove F c q` says which moves of `c` under `q` are made. -/
inductive Step (mayMove : Forest N L → N → N → Prop) : Forest N L → Forest N L → Prop
  | create {F : Forest N L} {p c : N} {l : L} {kind : NodeKind}
      (hparent : F.kind p = some .branch) (hfree : F.child p l = none)
      (hnew : F.kind c = none) : Step mayMove F (F.create p l c kind)
  | remove {F : Forest N L} {p c : N} {l : L} (hentry : F.child p l = some c)
      (hempty : ∀ m, F.child c m = none) : Step mayMove F (F.remove p l c)
  | detach {F : Forest N L} {p c : N} {l : L} (hentry : F.child p l = some c)
      (hbranch : F.kind c = some .branch) : Step mayMove F (F.detach p l c)
  | move {F : Forest N L} {p q c : N} {l m : L} (hentry : F.child p l = some c)
      (hfree : F.child q m = none) (hparent : F.kind q = some .branch)
      (hmay : mayMove F c q) : Step mayMove F (F.move p l q m c)
  | retire {F : Forest N L} {c : N} (hdetached : F.detached c)
      (hempty : ∀ m, F.child c m = none) : Step mayMove F (F.retire c)

abbrev Steps (mayMove : Forest N L → N → N → Prop) : Forest N L → Forest N L → Prop :=
  Relation.ReflTransGen (Step mayMove)

theorem WellFormed.step (h : F.WellFormed) (hstep : Step mayMove F F') : F'.WellFormed := by
  have hparent := @WellFormed.parent_branch _ _ _ h
  have hchild := @WellFormed.child_exists _ _ _ h
  have hunique := @WellFormed.entry_unique _ _ _ h
  have hroot := @WellFormed.root_branch _ _ _ h
  have hdetached := @WellFormed.detached_branch _ _ _ h
  have hnotRoot := @WellFormed.child_not_root _ _ _ h
  have hnotDetached := @WellFormed.child_not_detached _ _ _ h
  have hrootDetached := @WellFormed.root_not_detached _ _ _ h
  have hplaced := @WellFormed.placed _ _ _ h
  cases hstep with
  | create =>
    constructor <;> simp only [Forest.create, setKind, setChild] <;> grind
  | remove =>
    constructor <;> simp only [Forest.remove, setKind, setChild] <;> grind
  | detach =>
    constructor <;> simp only [Forest.detach, mark, setChild] <;> grind
  | move =>
    constructor <;> simp only [Forest.move, setChild] <;> grind
  | retire =>
    constructor <;> simp only [Forest.retire, unmark, setKind] <;> grind

theorem WellFormed.steps (h : F.WellFormed) (hsteps : Steps mayMove F F') : F'.WellFormed := by
  induction hsteps with
  | refl => exact h
  | tail _ hstep ih => exact ih.step hstep

end Operations

/-! ## Reachability -/

/-- Some entry of `a` names `b`. -/
def Edge (F : Forest N L) (a b : N) : Prop := ∃ l, F.child a l = some b

/-- `b` is `a` or lies below it. -/
def Below (F : Forest N L) : N → N → Prop := Relation.ReflTransGen F.Edge

def Anchor (F : Forest N L) (i : N) : Prop := F.root i ∨ F.detached i

/-- `i` is below a permanent root. -/
def Mounted (F : Forest N L) (i : N) : Prop := ∃ r, F.root r ∧ F.Below r i

/-- `i` is below a root or a detached node. -/
def Anchored (F : Forest N L) (i : N) : Prop := ∃ r, F.Anchor r ∧ F.Below r i

/-- `i` lies strictly below itself. -/
def Cyclic (F : Forest N L) (i : N) : Prop := Relation.TransGen F.Edge i i

variable {F F' : Forest N L} {a b i : N}

theorem Mounted.child (h : F.Mounted a) (hedge : F.Edge a b) : F.Mounted b := by
  obtain ⟨r, hr, hbelow⟩ := h
  exact ⟨r, hr, hbelow.tail hedge⟩

theorem Anchored.child (h : F.Anchored a) (hedge : F.Edge a b) : F.Anchored b := by
  obtain ⟨r, hr, hbelow⟩ := h
  exact ⟨r, hr, hbelow.tail hedge⟩

theorem Anchored.of_anchor (h : F.Anchor i) : F.Anchored i :=
  ⟨i, h, .refl⟩

section

variable (h : F.WellFormed)
include h

theorem WellFormed.edge_unique {c : N} (ha : F.Edge a c) (hb : F.Edge b c) : a = b := by
  obtain ⟨l, hl⟩ := ha
  obtain ⟨m, hm⟩ := hb
  exact (h.entry_unique hl hm).1

theorem WellFormed.anchor_no_edge {r : N} (hr : F.Anchor r) : ¬F.Edge a r := by
  rintro ⟨l, hl⟩
  rcases hr with hr | hr
  · exact h.child_not_root hl hr
  · exact h.child_not_detached hl hr

theorem WellFormed.cyclic_of_below (hbelow : F.Below a b) (hcyclic : F.Cyclic b) : F.Cyclic a := by
  induction hbelow with
  | refl => exact hcyclic
  | tail _ hedge ih =>
    refine ih ?_
    obtain ⟨d, hcd, hdc⟩ := Relation.TransGen.tail'_iff.1 hcyclic
    have heq := h.edge_unique hedge hdc
    subst heq
    exact Relation.TransGen.head' hedge hcd

theorem WellFormed.not_cyclic (hi : F.Anchored i) : ¬F.Cyclic i := by
  intro hcyclic
  obtain ⟨r, hr, hbelow⟩ := hi
  have hroot := h.cyclic_of_below hbelow hcyclic
  obtain ⟨d, _, hedge⟩ := Relation.TransGen.tail'_iff.1 hroot
  exact h.anchor_no_edge hr hedge

theorem WellFormed.below_of_anchor {r : N} (hr : F.Anchor r)
    (hri : F.Below r i) (hai : F.Below a i) : F.Below r a := by
  have hunique : Relator.RightUnique (Function.swap F.Edge) :=
    fun _ _ _ hb hc => h.edge_unique hb hc
  have hcompare := Relation.ReflTransGen.total_of_right_unique hunique
    (Relation.reflTransGen_swap.2 hri) (Relation.reflTransGen_swap.2 hai)
  rcases hcompare with hra | har
  · rcases Relation.ReflTransGen.cases_head hra with rfl | ⟨b, hb, _⟩
    · exact .refl
    · exact absurd hb (h.anchor_no_edge hr)
  · exact Relation.reflTransGen_swap.1 har

theorem WellFormed.anchored_or_cyclic (hfinite : {i | F.kind i ≠ none}.Finite)
    (hi : F.kind i ≠ none) :
    F.Anchored i ∨ ∃ c, F.Cyclic c ∧ F.Below c i := by
  by_contra hneither
  rw [not_or, not_exists] at hneither
  obtain ⟨hanchored, hacyclic⟩ := hneither
  have hexists : ∀ {a}, F.Below a i → F.kind a ≠ none := by
    intro a hbelow
    rcases Relation.ReflTransGen.cases_head hbelow with rfl | ⟨b, ⟨l, hl⟩, _⟩
    · exact hi
    · rw [h.parent_branch hl]
      exact Option.some_ne_none _
  have hfiniteAbove : Finite {a // F.Below a i} :=
    (hfinite.subset fun a ha => hexists ha).to_subtype
  let above : {a // F.Below a i} → {a // F.Below a i} → Prop :=
    fun a b => Relation.TransGen F.Edge a.1 b.1
  have hirrefl : Std.Irrefl above := ⟨fun a hcyclic => hacyclic a.1 ⟨hcyclic, a.2⟩⟩
  have htrans : IsTrans _ above := ⟨fun _ _ _ hab hbc => hab.trans hbc⟩
  have hwf : WellFounded above := Finite.wellFounded_of_trans_of_irrefl above
  obtain ⟨⟨top, htop⟩, _, hmin⟩ := hwf.has_min Set.univ ⟨⟨i, .refl⟩, trivial⟩
  refine hanchored ⟨top, ?_, htop⟩
  rcases h.placed (hexists htop) with hroot | hdetached | ⟨p, l, hl⟩
  · exact .inl hroot
  · exact .inr hdetached
  · exact absurd (Relation.TransGen.single ⟨l, hl⟩) (hmin ⟨p, .head ⟨l, hl⟩ htop⟩ trivial)

theorem WellFormed.mounted_iff (hfinite : {i | F.kind i ≠ none}.Finite)
    (hi : F.kind i ≠ none) :
    F.Mounted i ↔ (¬∃ r, F.detached r ∧ F.Below r i) ∧
      ¬∃ c, F.Cyclic c ∧ F.Below c i := by
  constructor
  · rintro ⟨r, hr, hbelow⟩
    refine ⟨?_, ?_⟩
    · rintro ⟨d, hd, hdi⟩
      have hrd := h.below_of_anchor (.inl hr) hbelow hdi
      rcases Relation.ReflTransGen.cases_tail hrd with rfl | ⟨b, _, hb⟩
      · exact h.root_not_detached hr hd
      · exact h.anchor_no_edge (.inr hd) hb
    · rintro ⟨c, hcyclic, hci⟩
      have hrc := h.below_of_anchor (.inl hr) hbelow hci
      exact h.not_cyclic ⟨r, .inl hr, hrc⟩ hcyclic
  · rintro ⟨hdetached, hacyclic⟩
    rcases h.anchored_or_cyclic hfinite hi with ⟨r, hr | hr, hbelow⟩ | hcyclic
    · exact ⟨r, hr, hbelow⟩
    · exact absurd ⟨r, hr, hbelow⟩ hdetached
    · exact absurd hcyclic hacyclic

end

theorem Below.avoids (h : F.Below a b) :
    Relation.ReflTransGen (fun x y => F.Edge x y ∧ y ≠ a) a b := by
  induction h with
  | refl => exact .refl
  | @tail b c _ hedge ih =>
    by_cases hca : c = a
    · rw [hca]
    · exact ih.tail ⟨hedge, hca⟩

/-- Moving `c` under a node that is `c` or below it closes a cycle. -/
theorem cyclic_of_move [DecidableEq N] [DecidableEq L] {p q c : N} {l m : L}
    (hentry : F.child p l = some c) (hbelow : F.Below c q)
    (hempty : ∀ d, F.child q m = some d → d ≠ c → ∀ n, F.child d n = none)
    (hmoved : ∀ a n, F'.child a n = if a = q ∧ n = m then some c
      else if a = p ∧ n = l then none else F.child a n) : F'.Cyclic c := by
  have hkeeps : ∀ {a}, Relation.ReflTransGen (fun x y => F.Edge x y ∧ y ≠ c) a q →
      F'.Below a q := by
    intro a hpath
    induction hpath using Relation.ReflTransGen.head_induction_on with
    | refl => exact .refl
    | @head a b hstep hrest ih =>
      obtain ⟨⟨n, hn⟩, hbc⟩ := hstep
      refine ih.head ⟨n, ?_⟩
      rw [hmoved, if_neg, if_neg]
      · exact hn
      · rintro ⟨rfl, rfl⟩
        rw [hentry] at hn
        exact hbc (Option.some.inj hn).symm
      · rintro ⟨rfl, rfl⟩
        have hleaf := hempty b hn hbc
        rcases Relation.ReflTransGen.cases_head hrest with rfl | ⟨_, ⟨⟨k, hk⟩, _⟩, _⟩
        · rw [hleaf] at hn
          cases hn
        · rw [hleaf] at hk
          cases hk
  refine Relation.TransGen.tail' (hkeeps hbelow.avoids) ⟨m, ?_⟩
  rw [hmoved, if_pos ⟨rfl, rfl⟩]

/-! ## Moves that keep every node anchored -/

def AllAnchored (F : Forest N L) : Prop := ∀ i, F.kind i ≠ none → F.Anchored i

/-- A move of `c` to a place that is not below `c`. -/
def MovesAway (F : Forest N L) (c q : N) : Prop := ¬F.Below c q

section Anchoring

variable [DecidableEq N] [DecidableEq L] {p c : N} {l : L}

theorem AllAnchored.create (h : F.AllAnchored) {kind : NodeKind}
    (hparent : F.kind p = some .branch) (hfree : F.child p l = none) :
    (F.create p l c kind).AllAnchored := by
  have hedge : ∀ {a b}, F.Edge a b → (F.create p l c kind).Edge a b := by
    rintro a b ⟨m, hm⟩
    refine ⟨m, ?_⟩
    simp only [Forest.create, setChild, setKind]
    rw [if_neg]
    · exact hm
    · rintro ⟨rfl, rfl⟩
      rw [hfree] at hm
      cases hm
  have hkeep : ∀ {i}, F.Anchored i → (F.create p l c kind).Anchored i := by
    rintro i ⟨r, hr, hbelow⟩
    exact ⟨r, hr, .mono (fun _ _ => hedge) _ _ hbelow⟩
  intro i hi
  by_cases hic : i = c
  · subst hic
    have hp := hkeep (h p (by rw [hparent]; exact Option.some_ne_none _))
    exact hp.child ⟨l, by simp [Forest.create, setChild]⟩
  · refine hkeep (h i ?_)
    simpa [Forest.create, setChild, setKind, hic] using hi

theorem AllAnchored.remove (h : F.AllAnchored) (hentry : F.child p l = some c)
    (hempty : ∀ m, F.child c m = none) (hnotAnchor : ¬F.Anchor c) :
    (F.remove p l c).AllAnchored := by
  have hkeep : ∀ {r i}, F.Anchor r → F.Below r i → i ≠ c → (F.remove p l c).Anchored i := by
    intro r i hr hbelow
    induction hbelow with
    | refl => exact fun _ => .of_anchor hr
    | @tail b i _ hedge ih =>
      intro hic
      obtain ⟨m, hm⟩ := hedge
      have hbc : b ≠ c := by
        rintro rfl
        rw [hempty] at hm
        cases hm
      refine (ih hbc).child ⟨m, ?_⟩
      simp only [Forest.remove, setChild, setKind]
      rw [if_neg]
      · exact hm
      · rintro ⟨rfl, rfl⟩
        rw [hentry] at hm
        exact hic (Option.some.inj hm).symm
  intro i hi
  have hic : i ≠ c := by
    rintro rfl
    simp [Forest.remove, setChild, setKind] at hi
  obtain ⟨r, hr, hbelow⟩ := h i (by
    simpa [Forest.remove, setChild, setKind, hic] using hi)
  exact hkeep hr hbelow hic

theorem AllAnchored.detach (h : F.AllAnchored) (hentry : F.child p l = some c) :
    (F.detach p l c).AllAnchored := by
  have hkeep : ∀ {r i}, F.Anchor r → F.Below r i → (F.detach p l c).Anchored i := by
    intro r i hr hbelow
    induction hbelow with
    | refl => exact .of_anchor (hr.imp_right .inr)
    | @tail b i _ hedge ih =>
      obtain ⟨m, hm⟩ := hedge
      by_cases hic : i = c
      · exact .of_anchor (.inr (.inl hic))
      · refine ih.child ⟨m, ?_⟩
        simp only [Forest.detach, mark, setChild]
        rw [if_neg]
        · exact hm
        · rintro ⟨rfl, rfl⟩
          rw [hentry] at hm
          exact hic (Option.some.inj hm).symm
  intro i hi
  obtain ⟨r, hr, hbelow⟩ := h i hi
  exact hkeep hr hbelow

omit [DecidableEq L] in
theorem AllAnchored.retire (h : F.AllAnchored) (hempty : ∀ m, F.child c m = none) :
    (F.retire c).AllAnchored := by
  intro i hi
  have hic : i ≠ c := by
    rintro rfl
    simp [Forest.retire, unmark, setKind] at hi
  obtain ⟨r, hr, hbelow⟩ := h i (by
    simpa [Forest.retire, unmark, setKind, hic] using hi)
  refine ⟨r, hr.imp_right fun hr => ⟨?_, hr⟩, hbelow⟩
  rintro rfl
  rcases Relation.ReflTransGen.cases_head hbelow with rfl | ⟨b, ⟨m, hm⟩, _⟩
  · exact hic rfl
  · rw [hempty] at hm
    cases hm

theorem AllAnchored.move (h : F.AllAnchored) {q : N} {m : L} (hentry : F.child p l = some c)
    (hfree : F.child q m = none) (hparent : F.kind q = some .branch) (haway : F.MovesAway c q) :
    (F.move p l q m c).AllAnchored := by
  have hedge : ∀ {a b}, F.Edge a b → b ≠ c → (F.move p l q m c).Edge a b := by
    rintro a b ⟨n, hn⟩ hbc
    refine ⟨n, ?_⟩
    simp only [Forest.move, setChild]
    rw [if_neg, if_neg]
    · exact hn
    · rintro ⟨rfl, rfl⟩
      rw [hentry] at hn
      exact hbc (Option.some.inj hn).symm
    · rintro ⟨rfl, rfl⟩
      rw [hfree] at hn
      cases hn
  have houtside : ∀ {r i}, F.Anchor r → F.Below r i → ¬F.Below c i →
      (F.move p l q m c).Anchored i := by
    intro r i hr hbelow
    induction hbelow with
    | refl => exact fun _ => .of_anchor hr
    | @tail b i _ hbi ih =>
      intro hci
      refine (ih fun hcb => hci (hcb.tail hbi)).child (hedge hbi ?_)
      rintro rfl
      exact hci .refl
  have hmoved : (F.move p l q m c).Anchored c := by
    obtain ⟨r, hr, hbelow⟩ := h q (by rw [hparent]; exact Option.some_ne_none _)
    exact (houtside hr hbelow haway).child ⟨m, by simp [Forest.move, setChild]⟩
  have hkeep : ∀ {r i}, F.Anchor r → F.Below r i → (F.move p l q m c).Anchored i := by
    intro r i hr hbelow
    induction hbelow with
    | refl => exact .of_anchor hr
    | @tail b i _ hbi ih =>
      by_cases hic : i = c
      · rw [hic]
        exact hmoved
      · exact ih.child (hedge hbi hic)
  intro i hi
  obtain ⟨r, hr, hbelow⟩ := h i hi
  exact hkeep hr hbelow

theorem AllAnchored.step (h : F.AllAnchored) (hwf : F.WellFormed)
    (hstep : Step MovesAway F F') : F'.AllAnchored := by
  cases hstep with
  | create hparent hfree => exact h.create hparent hfree
  | remove hentry hempty =>
    exact h.remove hentry hempty fun hanchor =>
      hwf.anchor_no_edge hanchor ⟨_, hentry⟩
  | detach hentry => exact h.detach hentry
  | move hentry hfree hparent haway => exact h.move hentry hfree hparent haway
  | retire hdetached hempty => exact h.retire hempty

theorem AllAnchored.steps (h : F.AllAnchored) (hwf : F.WellFormed)
    (hsteps : Steps MovesAway F F') : F'.AllAnchored := by
  induction hsteps with
  | refl => exact h
  | tail hbefore hstep ih => exact ih.step (hwf.steps hbefore) hstep

end Anchoring

end Forest
