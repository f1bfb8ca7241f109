import Mathlib

/-!
# Pages of a stream of items

A page takes items from the front of a stream until its budget is used up.  Every item
counts, also one that yields no value.  A page that stops at its budget names the mark of
its last item, from which the next page resumes; an item may also say that the stream ends
with it.
-/

namespace Beryl

open List

structure PageItem (C V : Type*) where
  mark : C
  value : Option V
  final : Bool

/-- The values of a page so far, and the number of items it has visited. -/
structure PageProgress (V : Type*) where
  values : List V
  visited : ℕ

structure PageOutcome (C V : Type*) extends PageProgress V where
  next : Option C

namespace PageItem

variable {C V : Type*} {limit : ℕ}

def visit (progress : PageProgress V) (item : PageItem C V) : PageProgress V :=
  ⟨progress.values ++ item.value.toList, progress.visited + 1⟩

def takePage (limit : ℕ) : List (PageItem C V) → PageProgress V → PageOutcome C V
  | [], progress => ⟨progress, none⟩
  | item :: items, progress =>
    let progress := visit progress item
    if item.final then ⟨progress, none⟩
    else if progress.visited = limit then ⟨progress, some item.mark⟩
    else takePage limit items progress

def values (items : List (PageItem C V)) : List V := items.filterMap PageItem.value

theorem values_cons (item : PageItem C V) (items : List (PageItem C V)) :
    values (item :: items) = item.value.toList ++ values items := by
  unfold values
  cases hvalue : item.value <;> simp [hvalue]

theorem values_append (front back : List (PageItem C V)) :
    values (front ++ back) = values front ++ values back := filterMap_append

theorem flatMap_filter {α β : Type*} (p : α → Bool) (f : α → List β) (l : List α) :
    (l.filter p).flatMap f = l.flatMap fun a => if p a then f a else [] := by
  induction l with
  | nil => rfl
  | cons a l ih =>
    rw [filter_cons, flatMap_cons, ← ih]
    split
    · rw [flatMap_cons]
    · rw [nil_append]

theorem filter_after {α β : Type*} [LinearOrder β] {f : α → β} {front back : List α} {a : α}
    (h : (front ++ a :: back).Pairwise fun x y => f x < f y) :
    (front ++ a :: back).filter (fun x => f a < f x) = back := by
  obtain ⟨_, htail, hcross⟩ := pairwise_append.1 h
  have hfront : front.filter (fun x => f a < f x) = [] := by
    rw [filter_eq_nil_iff]
    intro x hx
    rw [decide_eq_true_eq]
    exact (hcross x hx a mem_cons_self).asymm
  have hback : back.filter (fun x => f a < f x) = back := by
    rw [filter_eq_self]
    intro x hx
    rw [decide_eq_true_eq]
    exact (pairwise_cons.1 htail).1 x hx
  rw [filter_append, hfront, nil_append, filter_cons, hback]
  simp

def FinalLast (items : List (PageItem C V)) : Prop :=
  ∀ front item back, items = front ++ item :: back → item.final = true → back = []

theorem FinalLast.tail {item : PageItem C V} {items : List (PageItem C V)}
    (h : FinalLast (item :: items)) : FinalLast items := by
  intro front last back hsplit
  exact h (item :: front) last back (by rw [hsplit, cons_append])

theorem visited_takePage : ∀ (items : List (PageItem C V)) (progress : PageProgress V),
    progress.visited < limit → (takePage limit items progress).visited ≤ limit := by
  intro items
  induction items with
  | nil =>
    intro progress h
    exact Nat.le_of_lt h
  | cons item items ih =>
    intro progress h
    unfold takePage
    dsimp only
    split
    · exact h
    · split
      · exact h
      next hne => exact ih _ (Nat.lt_of_le_of_ne h hne)

theorem mem_of_next {mark : C} : ∀ (items : List (PageItem C V)) (progress : PageProgress V),
      (takePage limit items progress).next = some mark → ∃ item ∈ items, item.mark = mark := by
  intro items
  induction items with
  | nil =>
    intro progress h
    cases h
  | cons item items ih =>
    intro progress h
    unfold takePage at h
    dsimp only at h
    split at h
    · cases h
    · split at h
      · cases h
        exact ⟨item, mem_cons_self, rfl⟩
      · obtain ⟨found, hmem, hmark⟩ := ih _ h
        exact ⟨found, mem_cons_of_mem item hmem, hmark⟩

theorem values_of_next_none :
    ∀ (items : List (PageItem C V)) (progress : PageProgress V), FinalLast items →
      (takePage limit items progress).next = none →
      (takePage limit items progress).values = progress.values ++ values items := by
  intro items
  induction items with
  | nil =>
    intro progress _ _
    simp [takePage, values]
  | cons item items ih =>
    intro progress hlast hnext
    unfold takePage at hnext ⊢
    dsimp only at hnext ⊢
    rw [values_cons]
    split at hnext
    next hfinal =>
      rw [if_pos hfinal, hlast [] item items rfl hfinal]
      simp [visit, values]
    next hfinal =>
      rw [if_neg hfinal]
      split at hnext
      · cases hnext
      next hroom =>
        rw [if_neg hroom, ih _ hlast.tail hnext]
        simp [visit]

theorem values_of_next_some {mark : C} :
    ∀ (items : List (PageItem C V)) (progress : PageProgress V),
      (takePage limit items progress).next = some mark →
      ∃ front item back, items = front ++ item :: back ∧ item.mark = mark ∧ item.final = false ∧
        (takePage limit items progress).values = progress.values ++ values (front ++ [item]) := by
  intro items
  induction items with
  | nil =>
    intro progress h
    cases h
  | cons item items ih =>
    intro progress h
    unfold takePage at h ⊢
    dsimp only at h ⊢
    split at h
    · cases h
    next hfinal =>
      rw [if_neg hfinal]
      split at h
      next hfull =>
        cases h
        refine ⟨[], item, items, rfl, rfl, by simpa using hfinal, ?_⟩
        rw [if_pos hfull, nil_append, values_cons]
        simp [visit, values]
      next hroom =>
        obtain ⟨front, found, back, hsplit, hmark, hopen, hvalues⟩ := ih _ h
        refine ⟨item :: front, found, back, by rw [hsplit, cons_append], hmark, hopen, ?_⟩
        rw [if_neg hroom, hvalues, cons_append, values_cons]
        simp [visit]

end PageItem

end Beryl
