import Beryl.OrderedTable
import Mathlib.Data.Finmap

/-!
# Finite maps and what is derived from them

A hash map is a finite map without an order on its keys.  An index that counts
something over all values of such a map is maintained incrementally; what it
should hold is a `total`: the sum of a weight over the values.  The laws below say
how totals, and indexes, move when one key is inserted, replaced or erased.
-/

abbrev HashMap (K V : Type*) := Finmap fun _ : K => V

namespace HashMap

variable {K V : Type*}

/-- What `filterMap` does to one entry. -/
def mapEntry (f : K → V → Option V) (entry : Sigma fun _ : K => V) :
    Option (Sigma fun _ : K => V) :=
  (f entry.1 entry.2).map fun value => ⟨entry.1, value⟩

theorem keys_filterMap (f : K → V → Option V) (list : List (Sigma fun _ : K => V)) :
    List.Sublist (list.filterMap (mapEntry f)).keys list.keys := by
  induction list with
  | nil => simp
  | cons entry rest ih =>
    rw [List.filterMap_cons]
    unfold mapEntry at ih ⊢
    cases f entry.1 entry.2 with
    | none => simpa using ih.cons _
    | some => simpa using ih.cons_cons entry.1

/-- Replace or drop the value of every key: `retain`, or a loop over `values_mut`. -/
def filterMap (f : K → V → Option V) (map : HashMap K V) : HashMap K V :=
  map.liftOn (fun list => (⟨list.entries.filterMap (mapEntry f),
    (keys_filterMap f list.entries).nodup list.nodupKeys⟩ : AList fun _ : K => V).toFinmap)
    fun _ _ h => AList.toFinmap_eq.2 (h.filterMap _)

theorem entries_filterMap (f : K → V → Option V) (map : HashMap K V) :
    (map.filterMap f).entries = map.entries.filterMap (mapEntry f) := by
  induction map using Finmap.induction_on with
  | _ => simp [filterMap, AList.toFinmap_entries]

def len (map : HashMap K V) : ℕ := map.entries.card

theorem len_filterMap_le (f : K → V → Option V) (map : HashMap K V) :
    (map.filterMap f).len ≤ map.len := by
  unfold HashMap.len
  rw [entries_filterMap]
  induction map using Finmap.induction_on with
  | _ => exact List.length_filterMap_le _ _

def total (weight : V → ℕ) (map : HashMap K V) : ℕ :=
  (map.entries.map fun entry => weight entry.2).sum

variable {weight : V → ℕ} {map : HashMap K V}

theorem len_eq_total : map.len = total (fun _ => 1) map := by
  simp [len, total]

variable [DecidableEq K]

theorem lookup_insert_eq (map : HashMap K V) (key key' : K) (value : V) :
    (map.insert key value).lookup key' = if key' = key then some value else map.lookup key' := by
  by_cases h : key' = key
  · subst h
    rw [if_pos rfl]
    exact Finmap.lookup_insert map
  · rw [if_neg h]
    exact Finmap.lookup_insert_of_ne map h

theorem lookup_erase_eq (map : HashMap K V) (key key' : K) :
    (map.erase key).lookup key' = if key' = key then none else map.lookup key' := by
  by_cases h : key' = key
  · subst h
    rw [if_pos rfl]
    exact Finmap.lookup_erase key' map
  · rw [if_neg h]
    exact Finmap.lookup_erase_ne h

theorem lookup_of_erase {map : HashMap K V} {key key' : K} {value : V}
    (h : (map.erase key).lookup key' = some value) : map.lookup key' = some value := by
  rw [lookup_erase_eq] at h
  split at h
  · cases h
  · exact h

theorem entries_insert {map : HashMap K V} {key : K} (value : V) (h : map.lookup key = none) :
    (map.insert key value).entries = ⟨key, value⟩ ::ₘ map.entries := by
  induction map using Finmap.induction_on with
  | _ list =>
    have hfresh : key ∉ list.entries.keys := fun hmem =>
      absurd h (Option.isSome_iff_ne_none.1 (List.dlookup_isSome.2 hmem))
    have hentries : (list.insert key value).entries = ⟨key, value⟩ :: list.entries := by
      change List.kinsert key value list.entries = _
      rw [List.kinsert_def, List.kerase_of_notMem_keys hfresh]
    rw [Finmap.insert_toFinmap, AList.toFinmap_entries, hentries]
    rfl

/-- `retain` by a test on the values: erase the keys whose value fails it. -/
def filterValues (keep : V → Bool) (map : HashMap K V) : HashMap K V :=
  map.liftOn (fun list => (⟨list.entries.filter fun entry => keep entry.2,
    list.nodupKeys.sublist List.filter_sublist⟩ : AList fun _ : K => V).toFinmap)
    fun _ _ h => AList.toFinmap_eq.2 (h.filter _)

theorem lookup_filterValues (keep : V → Bool) (map : HashMap K V) (key : K) :
    (map.filterValues keep).lookup key = (map.lookup key).filter keep := by
  have hentries : (map.filterValues keep).entries =
      map.entries.filter fun entry => keep entry.2 := by
    induction map using Finmap.induction_on with
    | _ => simp [filterValues, AList.toFinmap_entries]
  apply Option.ext
  intro value
  have hkept : (map.filterValues keep).lookup key = some value ↔
      map.lookup key = some value ∧ keep value := by
    rw [← Option.mem_def, ← Option.mem_def, Finmap.mem_lookup_iff, Finmap.mem_lookup_iff,
      hentries, Multiset.mem_filter]
  rw [hkept, Option.filter_eq_some_iff]

theorem lookup_filterMap (f : K → V → Option V) (map : HashMap K V) (key : K) :
    (map.filterMap f).lookup key = (map.lookup key).bind (f key) := by
  apply Option.ext
  intro value
  rw [Option.bind_eq_some_iff, ← Option.mem_def, Finmap.mem_lookup_iff, entries_filterMap,
    Multiset.mem_filterMap]
  constructor
  · rintro ⟨⟨other, old⟩, hmem, hentry⟩
    obtain ⟨new, hnew, heq⟩ := Option.map_eq_some_iff.1 hentry
    cases heq
    exact ⟨old, Finmap.mem_lookup_iff.2 hmem, hnew⟩
  · rintro ⟨old, hold, hnew⟩
    refine ⟨⟨key, old⟩, Finmap.mem_lookup_iff.1 hold, ?_⟩
    unfold mapEntry
    rw [hnew]
    rfl

variable {key : K} {value : V}

theorem total_insert (value : V) (h : map.lookup key = none) :
    total weight (map.insert key value) = total weight map + weight value := by
  unfold total
  rw [entries_insert value h, Multiset.map_cons, Multiset.sum_cons, Nat.add_comm]

theorem insert_erase (h : map.lookup key = some value) :
    (map.erase key).insert key value = map := by
  apply Finmap.ext_lookup
  intro key'
  rw [lookup_insert_eq, lookup_erase_eq]
  by_cases hkey : key' = key
  · rw [if_pos hkey, hkey, h]
  · rw [if_neg hkey, if_neg hkey]

theorem insert_erase_self (map : HashMap K V) (key : K) (value : V) :
    (map.erase key).insert key value = map.insert key value := by
  apply Finmap.ext_lookup
  intro key'
  rw [lookup_insert_eq, lookup_insert_eq, lookup_erase_eq]
  by_cases hkey : key' = key
  · rw [if_pos hkey, if_pos hkey]
  · rw [if_neg hkey, if_neg hkey, if_neg hkey]

theorem total_erase (h : map.lookup key = some value) :
    total weight (map.erase key) + weight value = total weight map := by
  have hfresh : (map.erase key).lookup key = none := by
    rw [lookup_erase_eq, if_pos rfl]
  rw [← total_insert value hfresh, insert_erase h]

theorem total_replace (weight : V → ℕ) (value' : V) (h : map.lookup key = some value) :
    total weight (map.insert key value') + weight value = total weight map + weight value' := by
  have hfresh : (map.erase key).lookup key = none := by
    rw [lookup_erase_eq, if_pos rfl]
  rw [← insert_erase_self, total_insert value' hfresh, ← total_erase h]
  omega

theorem len_insert (value : V) (h : map.lookup key = none) :
    len (map.insert key value) = map.len + 1 := by
  rw [len_eq_total, len_eq_total, total_insert value h]

theorem len_erase (h : map.lookup key = some value) : len (map.erase key) + 1 = map.len := by
  rw [len_eq_total, len_eq_total, ← total_erase h]

theorem len_replace (value' : V) (h : map.lookup key = some value) :
    len (map.insert key value') = map.len := by
  rw [len_eq_total, len_eq_total]
  exact Nat.add_right_cancel (total_replace (fun _ => 1) value' h)

omit [DecidableEq K] in
theorem total_mono {weight' : V → ℕ} (h : ∀ value, weight value ≤ weight' value) :
    total weight map ≤ total weight' map :=
  Multiset.sum_map_le_sum_map _ _ fun entry _ => h entry.2

theorem total_le_of_lookup {map' : HashMap K V}
    (h : ∀ key value, map'.lookup key = some value → map.lookup key = some value) :
    total weight map' ≤ total weight map := by
  have hsubset : map'.entries ⊆ map.entries := fun entry hentry =>
    Finmap.mem_lookup_iff.1 (h entry.1 entry.2 (Finmap.mem_lookup_iff.2 hentry))
  obtain ⟨rest, hrest⟩ := Multiset.le_iff_exists_add.1
    ((Multiset.le_iff_subset map'.nodup_entries).2 hsubset)
  unfold total
  rw [hrest, Multiset.map_add, Multiset.sum_add]
  exact Nat.le_add_right _ _

theorem le_total (h : map.lookup key = some value) : weight value ≤ total weight map := by
  rw [← total_erase h]
  omega

theorem total_eq_zero_iff :
    total weight map = 0 ↔ ∀ key value, map.lookup key = some value → weight value = 0 := by
  unfold total
  rw [Multiset.sum_eq_zero_iff]
  constructor
  · intro h key value hlookup
    exact h _ (Multiset.mem_map_of_mem _ (Finmap.mem_lookup_iff.1 hlookup))
  · intro h count hcount
    obtain ⟨entry, hentry, rfl⟩ := Multiset.mem_map.1 hcount
    exact h entry.1 entry.2 (Finmap.mem_lookup_iff.2 hentry)

end HashMap

/-- How a table of counts stores a count: keys whose count is zero are absent. -/
def counted (count : ℕ) : Option ℕ := if count = 0 then none else some count

@[simp] theorem counted_zero : counted 0 = none := rfl

@[simp] theorem counted_succ (count : ℕ) : counted (count + 1) = some (count + 1) := rfl

@[simp] theorem counted_getD (count : ℕ) : (counted count).getD 0 = count := by
  cases count <;> rfl

/-! ## Indexes of a finite map

An inverse index finds the key of a value by something that identifies it; a set
index lists something of every entry.  Both follow the map entry by entry.
-/

/-- `index` finds, for each identity, the key whose value has it. -/
def Inverts {X K V : Type*} [DecidableEq X] [DecidableEq K] (index : HashMap X K)
    (identity : V → Option X) (map : HashMap K V) : Prop :=
  ∀ x key, index.lookup x = some key ↔
    ∃ value, map.lookup key = some value ∧ identity value = some x

namespace Inverts

variable {X K V : Type*} [DecidableEq X] [DecidableEq K] {index : HashMap X K}
  {identity : V → Option X} {map : HashMap K V} {key key' : K} {value value' : V} {x : X}

section

variable (h : Inverts index identity map)
include h

theorem unique (hvalue : map.lookup key = some value)
    (hvalue' : map.lookup key' = some value') (hx : identity value = some x)
    (hx' : identity value' = some x) : key' = key := by
  have hfirst := (h x key).2 ⟨value, hvalue, hx⟩
  rw [(h x key').2 ⟨value', hvalue', hx'⟩] at hfirst
  exact Option.some.inj hfirst

theorem insert (hnew : map.lookup key = none)
    (hx : identity value = some x) (hfree : index.lookup x = none) :
    Inverts (index.insert x key) identity (map.insert key value) := by
  intro x' key'
  rw [HashMap.lookup_insert_eq, HashMap.lookup_insert_eq]
  by_cases hkey : key' = key
  · subst hkey
    have hnone : index.lookup x' ≠ some key' := by
      intro hlookup
      obtain ⟨found, hfound, _⟩ := (h x' key').1 hlookup
      rw [hnew] at hfound
      cases hfound
    by_cases hx' : x' = x
    · simp [hx', hx]
    · simp [hx', hx, hnone, Ne.symm hx']
  · rw [if_neg hkey]
    by_cases hx' : x' = x
    · subst hx'
      rw [if_pos rfl]
      constructor
      · intro heq
        exact absurd (Option.some.inj heq).symm hkey
      · intro hfound
        rw [(h x' key').2 hfound] at hfree
        cases hfree
    · rw [if_neg hx']
      exact h x' key'

theorem insert_none (hnew : map.lookup key = none)
    (hx : identity value = none) : Inverts index identity (map.insert key value) := by
  intro x' key'
  rw [h x' key', HashMap.lookup_insert_eq]
  by_cases hkey : key' = key
  · subst hkey
    simp [hnew, hx]
  · rw [if_neg hkey]

theorem erase (hvalue : map.lookup key = some value)
    (hx : identity value = some x) : Inverts (index.erase x) identity (map.erase key) := by
  intro x' key'
  rw [HashMap.lookup_erase_eq, HashMap.lookup_erase_eq]
  by_cases hkey : key' = key
  · subst hkey
    rw [if_pos rfl]
    by_cases hx' : x' = x
    · simp [hx']
    · rw [if_neg hx', h x' key', hvalue]
      simp [hx, Ne.symm hx']
  · rw [if_neg hkey]
    by_cases hx' : x' = x
    · subst hx'
      rw [if_pos rfl]
      constructor
      · exact nofun
      · rintro ⟨found, hfound, hsame⟩
        exact absurd (h.unique hvalue hfound hx hsame) hkey
    · rw [if_neg hx']
      exact h x' key'

theorem erase_none (hvalue : map.lookup key = some value)
    (hx : identity value = none) : Inverts index identity (map.erase key) := by
  intro x' key'
  rw [h x' key', HashMap.lookup_erase_eq]
  by_cases hkey : key' = key
  · subst hkey
    simp [hvalue, hx]
  · rw [if_neg hkey]

theorem replace (hvalue : map.lookup key = some value) (hsame : identity value' = identity value) :
    Inverts index identity (map.insert key value') := by
  intro x' key'
  rw [h x' key', HashMap.lookup_insert_eq]
  by_cases hkey : key' = key
  · subst hkey
    simp [hvalue, hsame]
  · rw [if_neg hkey]

end

end Inverts

/-- `index` holds exactly what `item` says of the entries of `map`. -/
def EntriesListed {X K V : Type*} [LinearOrder X] [DecidableEq K] (index : OrderedTable X Unit)
    (item : K → V → X) (map : HashMap K V) : Prop :=
  ∀ x, index.get x = some () ↔ ∃ key value, map.lookup key = some value ∧ item key value = x

namespace EntriesListed

variable {X K V : Type*} [LinearOrder X] [DecidableEq K] {index : OrderedTable X Unit}
  {item : K → V → X} {map : HashMap K V} {key : K} {value value' : V}

section

variable (h : EntriesListed index item map)
include h

theorem insert (hnew : map.lookup key = none) :
    EntriesListed (index.put (item key value) ()) item (map.insert key value) := by
  intro x
  rw [OrderedTable.get_put]
  constructor
  · intro hget
    split at hget
    next hx => exact ⟨key, value, by rw [HashMap.lookup_insert_eq, if_pos rfl], hx.symm⟩
    next =>
      obtain ⟨key', found, hfound, hx⟩ := (h x).1 hget
      have hne : key' ≠ key := by
        intro heq
        rw [heq, hnew] at hfound
        cases hfound
      exact ⟨key', found, by rw [HashMap.lookup_insert_eq, if_neg hne, hfound], hx⟩
  · rintro ⟨key', found, hfound, hx⟩
    rw [HashMap.lookup_insert_eq] at hfound
    split at hfound
    next hkey =>
      cases hfound
      rw [if_pos (by rw [← hx, hkey])]
    next => rw [(h x).2 ⟨key', found, hfound, hx⟩, ite_self]

theorem erase (hvalue : map.lookup key = some value)
    (hunique : ∀ key' value', map.lookup key' = some value' →
      item key' value' = item key value → key' = key) :
    EntriesListed (index.delete (item key value)) item (map.erase key) := by
  intro x
  rw [OrderedTable.get_delete]
  constructor
  · intro hget
    split at hget
    next => cases hget
    next hx =>
      obtain ⟨key', found, hfound, hitem⟩ := (h x).1 hget
      have hne : key' ≠ key := by
        intro heq
        rw [heq, hvalue] at hfound
        cases hfound
        exact hx (by rw [← hitem, heq])
      exact ⟨key', found, by rw [HashMap.lookup_erase_eq, if_neg hne, hfound], hitem⟩
  · rintro ⟨key', found, hfound, hitem⟩
    rw [HashMap.lookup_erase_eq] at hfound
    split at hfound
    next => cases hfound
    next hne =>
      have hx : x ≠ item key value := by
        intro heq
        exact hne (hunique key' found hfound (hitem.trans heq))
      rw [if_neg hx]
      exact (h x).2 ⟨key', found, hfound, hitem⟩

theorem replace (hvalue : map.lookup key = some value)
    (hunique : ∀ key' value', map.lookup key' = some value' →
      item key' value' = item key value → key' = key) :
    EntriesListed ((index.delete (item key value)).put (item key value') ()) item
      (map.insert key value') := by
  have hgone : (map.erase key).lookup key = none := by
    rw [HashMap.lookup_erase_eq, if_pos rfl]
  rw [← HashMap.insert_erase_self]
  exact (h.erase hvalue hunique).insert hgone

theorem keep (hvalue : map.lookup key = some value) (hsame : item key value' = item key value) :
    EntriesListed index item (map.insert key value') := by
  intro x
  rw [h x]
  constructor
  · rintro ⟨key', found, hfound, hx⟩
    by_cases hkey : key' = key
    · subst hkey
      rw [hvalue] at hfound
      cases hfound
      exact ⟨key', value', by rw [HashMap.lookup_insert_eq, if_pos rfl], hsame.trans hx⟩
    · exact ⟨key', found, by rw [HashMap.lookup_insert_eq, if_neg hkey, hfound], hx⟩
  · rintro ⟨key', found, hfound, hx⟩
    rw [HashMap.lookup_insert_eq] at hfound
    split at hfound
    next hkey =>
      cases hfound
      subst hkey
      exact ⟨key', value, hvalue, hsame.symm.trans hx⟩
    next => exact ⟨key', found, hfound, hx⟩

end

end EntriesListed
