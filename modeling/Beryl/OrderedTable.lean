import Mathlib.Order.Lattice
import Mathlib.Tactic

/-!
# Ordered tables

A finite map kept as a list of entries with strictly increasing keys: the
contents of one column family of a key-value store, in the order in which an
iterator visits it.  The order is a field of the structure, so a table with a
repeated key cannot be built and two tables that agree on every key are equal.
-/

namespace OrderedTable

variable {K V : Type*} [LinearOrder K]

def Ascending (entries : List (K × V)) : Prop :=
  entries.Pairwise (fun left right => left.1 < right.1)

def lookup (key : K) : List (K × V) → Option V
  | [] => none
  | (k, v) :: rest => if key = k then some v else lookup key rest

/-- Insert an entry at its place, replacing the value already stored there. -/
def insert (key : K) (value : V) : List (K × V) → List (K × V)
  | [] => [(key, value)]
  | (k, v) :: rest =>
    if key < k then (key, value) :: (k, v) :: rest
    else if key = k then (key, value) :: rest
    else (k, v) :: insert key value rest

variable {entries : List (K × V)} {key : K} {value : V}

theorem mem_insert {entry : K × V} (h : entry ∈ insert key value entries) :
    entry = (key, value) ∨ entry ∈ entries := by
  induction entries with
  | nil => simpa [insert] using h
  | cons head rest ih =>
    obtain ⟨k, v⟩ := head
    simp only [insert] at h
    split at h
    · simpa using h
    · split at h
      · rcases List.mem_cons.1 h with rfl | hmem
        · exact Or.inl rfl
        · exact Or.inr (List.mem_cons_of_mem _ hmem)
      · rcases List.mem_cons.1 h with rfl | hmem
        · exact Or.inr List.mem_cons_self
        · exact (ih hmem).imp_right (List.mem_cons_of_mem _)

theorem Ascending.insert (h : Ascending entries) (key : K) (value : V) :
    Ascending (insert key value entries) := by
  induction entries with
  | nil => exact List.pairwise_singleton _ _
  | cons head rest ih =>
    obtain ⟨k, v⟩ := head
    obtain ⟨hhead, hrest⟩ := List.pairwise_cons.1 h
    simp only [OrderedTable.insert]
    split
    next hlt =>
      refine List.pairwise_cons.2 ⟨fun entry hmem => ?_, h⟩
      rcases List.mem_cons.1 hmem with rfl | hmem
      · exact hlt
      · exact hlt.trans (hhead entry hmem)
    next hnlt =>
      split
      next heq =>
        subst heq
        exact List.pairwise_cons.2 ⟨hhead, hrest⟩
      next hne =>
        have hkey : k < key := lt_of_le_of_ne (not_lt.1 hnlt) (Ne.symm hne)
        refine List.pairwise_cons.2 ⟨fun entry hmem => ?_, ih hrest⟩
        rcases mem_insert hmem with rfl | hmem
        · exact hkey
        · exact hhead entry hmem

theorem lookup_insert (entries : List (K × V)) (key key' : K) (value : V) :
    lookup key' (insert key value entries) =
      if key' = key then some value else lookup key' entries := by
  induction entries with
  | nil => rfl
  | cons head rest ih =>
    obtain ⟨k, v⟩ := head
    simp only [insert]
    split
    · rfl
    · split
      next heq =>
        subst heq
        by_cases hkey : key' = key <;> simp [lookup, hkey]
      next hne =>
        simp only [lookup, ih]
        by_cases hk : key' = k
        · subst hk
          simp [Ne.symm hne]
        · simp [hk]

theorem lookup_filter_ne (entries : List (K × V)) (key key' : K) :
    lookup key' (entries.filter fun entry => entry.1 ≠ key) =
      if key' = key then none else lookup key' entries := by
  induction entries with
  | nil => simp [lookup]
  | cons head =>
    obtain ⟨k, v⟩ := head
    by_cases hk : k = key
    · subst hk
      by_cases hkey : key' = k <;> simp_all [lookup]
    · by_cases hkey : key' = k
      · subst hkey
        simp [lookup, hk]
      · simp_all [lookup]

theorem lookup_eq_some_iff_mem (h : Ascending entries) :
    lookup key entries = some value ↔ (key, value) ∈ entries := by
  induction entries with
  | nil => simp [lookup]
  | cons head rest ih =>
    obtain ⟨k, v⟩ := head
    obtain ⟨hhead, hrest⟩ := List.pairwise_cons.1 h
    simp only [lookup, List.mem_cons, Prod.mk.injEq]
    by_cases hk : key = k
    · subst hk
      have hnot : (key, value) ∉ rest := fun hmem =>
        lt_irrefl key (hhead (key, value) hmem)
      simp [hnot, eq_comm]
    · simp [hk, ih hrest]

theorem length_insert (h : lookup key entries = none) :
    (insert key value entries).length = entries.length + 1 := by
  induction entries with
  | nil => rfl
  | cons head rest ih =>
    obtain ⟨k, v⟩ := head
    simp only [lookup] at h
    simp only [insert]
    split at h
    · cases h
    next hne =>
      split
      · rfl
      · rw [List.length_cons, ih h, List.length_cons]

theorem length_filter_ne (hascending : Ascending entries) (h : lookup key entries = some value) :
    (entries.filter fun entry => entry.1 ≠ key).length + 1 = entries.length := by
  induction entries with
  | nil => cases h
  | cons head rest ih =>
    obtain ⟨k, v⟩ := head
    obtain ⟨hhead, hrest⟩ := List.pairwise_cons.1 hascending
    by_cases hk : key = k
    · subst hk
      have hkeep : (rest.filter fun entry => entry.1 ≠ key) = rest := by
        apply List.filter_eq_self.2
        intro entry hmem
        simpa using (hhead entry hmem).ne'
      rw [List.filter_cons_of_neg (by simp), hkeep, List.length_cons]
    · rw [lookup, if_neg hk] at h
      have hlength := ih hrest h
      simpa [Ne.symm hk] using hlength

end OrderedTable

structure OrderedTable (K : Type*) (V : Type*) [LinearOrder K] where
  entries : List (K × V)
  ascending : OrderedTable.Ascending entries

namespace OrderedTable

variable {K V : Type*} [LinearOrder K]

instance [DecidableEq V] : DecidableEq (OrderedTable K V) := fun left right =>
  decidable_of_iff (left.entries = right.entries)
    ⟨fun h => by
      cases left
      cases right
      cases h
      rfl, fun h => h ▸ rfl⟩

def empty : OrderedTable K V := ⟨[], List.Pairwise.nil⟩

def get (table : OrderedTable K V) (key : K) : Option V :=
  lookup key table.entries

def put (table : OrderedTable K V) (key : K) (value : V) :
    OrderedTable K V :=
  ⟨insert key value table.entries, table.ascending.insert key value⟩

def delete (table : OrderedTable K V) (key : K) : OrderedTable K V :=
  ⟨table.entries.filter fun entry => entry.1 ≠ key, table.ascending.filter _⟩

@[simp] theorem get_empty (key : K) : (empty : OrderedTable K V).get key = none := rfl

@[simp] theorem get_put (table : OrderedTable K V) (key key' : K) (value : V) :
    (table.put key value).get key' = if key' = key then some value else table.get key' :=
  lookup_insert _ _ _ _

@[simp] theorem get_delete (table : OrderedTable K V) (key key' : K) : (table.delete key).get key' =
      if key' = key then none else table.get key' :=
  lookup_filter_ne _ _ _

variable {key key' : K} {value value' : V} {table : OrderedTable K V}

theorem get_of_put (h : (table.put key value).get key' = some value') :
    table.get key' = some value' ∨ key' = key ∧ value' = value := by
  rw [get_put] at h
  split at h
  next heq => exact .inr ⟨heq, (Option.some.inj h).symm⟩
  · exact .inl h

theorem get_of_delete (h : (table.delete key).get key' = some value) :
    table.get key' = some value := by
  rw [get_delete] at h
  split at h
  · cases h
  · exact h

theorem mem_entries_iff (table : OrderedTable K V) :
    (key, value) ∈ table.entries ↔ table.get key = some value :=
  (lookup_eq_some_iff_mem table.ascending).symm

@[ext] theorem ext_get {left right : OrderedTable K V}
    (h : ∀ key, left.get key = right.get key) : left = right := by
  have hmem : ∀ entry, entry ∈ left.entries ↔ entry ∈ right.entries := by
    rintro ⟨key, value⟩
    rw [mem_entries_iff, mem_entries_iff, h key]
  have hperm : left.entries.Perm right.entries := by
    refine (List.perm_ext_iff_of_nodup ?_ ?_).2 hmem
    · exact left.ascending.imp fun hlt heq => hlt.ne (congrArg Prod.fst heq)
    · exact right.ascending.imp fun hlt heq => hlt.ne (congrArg Prod.fst heq)
  have heq : left.entries = right.entries := by
    refine hperm.eq_of_pairwise ?_ left.ascending right.ascending
    intro a b _ _ hab hba
    exact absurd (hab.trans hba) (lt_irrefl _)
  cases left
  cases right
  cases heq
  rfl

theorem length_put (h : table.get key = none) :
    (table.put key value).entries.length = table.entries.length + 1 :=
  length_insert h

theorem length_delete (h : table.get key = some value) :
    (table.delete key).entries.length + 1 = table.entries.length :=
  length_filter_ne table.ascending h

/-- A table whose keys are all bound in another is no longer than it, and shorter
if it misses one of its keys. -/
theorem length_le_of_keys {other : OrderedTable K V}
    (h : ∀ {key}, table.get key ≠ none → other.get key ≠ none) :
    table.entries.length ≤ other.entries.length ∧
      ∀ key, other.get key ≠ none → table.get key = none →
        table.entries.length < other.entries.length := by
  have hmem : ∀ (table : OrderedTable K V) (key : K),
      key ∈ table.entries.map Prod.fst ↔ table.get key ≠ none := by
    intro table key
    rw [Option.ne_none_iff_exists', List.mem_map]
    constructor
    · rintro ⟨⟨key, value⟩, hentry, rfl⟩
      exact ⟨value, table.mem_entries_iff.1 hentry⟩
    · rintro ⟨value, hget⟩
      exact ⟨(key, value), table.mem_entries_iff.2 hget, rfl⟩
  have hnodup : (table.entries.map Prod.fst).Nodup :=
    List.pairwise_map.2 (table.ascending.imp fun hlt => hlt.ne)
  have hsubset : table.entries.map Prod.fst ⊆ other.entries.map Prod.fst :=
    fun key hkey => (hmem other key).2 (h ((hmem table key).1 hkey))
  refine ⟨?_, fun key hother hnone => ?_⟩
  · simpa using (List.subperm_of_subset hnodup hsubset).length_le
  · have hnew : key ∉ table.entries.map Prod.fst := fun hkey => (hmem table key).1 hkey hnone
    have hsubset' : key :: table.entries.map Prod.fst ⊆ other.entries.map Prod.fst :=
      List.cons_subset.2 ⟨(hmem other key).2 hother, hsubset⟩
    simpa using (List.subperm_of_subset (List.nodup_cons.2 ⟨hnew, hnodup⟩) hsubset').length_le

theorem head_le {first : K × V} (hfirst : table.entries.head? = some first)
    (hget : table.get key = some value) : first.1 ≤ key := by
  have hmem := table.mem_entries_iff.2 hget
  have hascending := table.ascending
  unfold Ascending at hascending
  cases hentries : table.entries with
  | nil => simp [hentries] at hmem
  | cons =>
    rw [hentries] at hmem hascending hfirst
    cases hfirst
    rcases List.mem_cons.1 hmem with heq | hrest
    · rw [← heq]
    · exact ((List.pairwise_cons.1 hascending).1 _ hrest).le

theorem exists_head_of_get (h : table.get key = some value) :
    ∃ first, table.entries.head? = some first ∧ first.1 ≤ key := by
  obtain ⟨first, hfirst⟩ := Option.isSome_iff_exists.1
    (List.isSome_head?.2 (List.ne_nil_of_mem (table.mem_entries_iff.2 h)))
  exact ⟨first, hfirst, head_le hfirst h⟩

theorem exists_getLast_of_get (h : table.get key = some value) :
    ∃ last, table.entries.getLast? = some last ∧ key ≤ last.1 := by
  have hmem := table.mem_entries_iff.2 h
  have hne : table.entries ≠ [] := List.ne_nil_of_mem hmem
  refine ⟨table.entries.getLast hne, List.getLast?_eq_getLast_of_ne_nil hne, ?_⟩
  have hsplit := List.dropLast_append_getLast hne
  rw [← hsplit] at hmem
  rcases List.mem_append.1 hmem with hfront | hlast
  · have hpair := table.ascending
    unfold Ascending at hpair
    rw [← hsplit] at hpair
    exact ((List.pairwise_append.1 hpair).2.2 _ hfront _ List.mem_cons_self).le
  · rw [List.mem_singleton] at hlast
    rw [← hlast]

theorem finite_keys (table : OrderedTable K V) :
    {key | ∃ value, table.get key = some value}.Finite := by
  refine (table.entries.map Prod.fst).finite_toSet.subset ?_
  rintro key ⟨value, hget⟩
  exact List.mem_map.2 ⟨(key, value), (table.mem_entries_iff).2 hget, rfl⟩

def entriesFrom (table : OrderedTable K V) (start : K) : List (K × V) :=
  table.entries.filter fun entry => start ≤ entry.1

def deleteAll (table : OrderedTable K V) (keys : List K) : OrderedTable K V :=
  keys.foldl delete table

def putAll (table : OrderedTable K V) (entries : List (K × V)) : OrderedTable K V :=
  entries.foldl (fun table entry => table.put entry.1 entry.2) table

theorem entries_deleteAll (keys : List K) : ∀ table : OrderedTable K V,
      (table.deleteAll keys).entries = table.entries.filter fun entry => entry.1 ∉ keys := by
  induction keys with
  | nil => simp [deleteAll]
  | cons key keys ih =>
    intro table
    refine (ih (table.delete key)).trans ?_
    simp only [delete, List.filter_filter, List.mem_cons, not_or]
    refine List.filter_congr fun entry _ => ?_
    simp [Bool.and_comm]

theorem insert_of_lt {entries : List (K × V)} (h : ∀ entry ∈ entries, entry.1 < key) :
    insert key value entries = entries ++ [(key, value)] := by
  induction entries with
  | nil => rfl
  | cons head rest ih =>
    obtain ⟨hhead, hrest⟩ := List.forall_mem_cons.1 h
    obtain ⟨k, v⟩ := head
    rw [insert, if_neg hhead.not_gt, if_neg hhead.ne', ih hrest]
    rfl

theorem entries_putAll {added : List (K × V)} :
    ∀ {table : OrderedTable K V}, Ascending (table.entries ++ added) →
      (table.putAll added).entries = table.entries ++ added := by
  induction added with
  | nil => simp [putAll]
  | cons entry added ih =>
    intro table h
    have habove : ∀ other ∈ table.entries, other.1 < entry.1 := fun other hother =>
      (List.pairwise_append.1 h).2.2 other hother entry List.mem_cons_self
    have hput : (table.put entry.1 entry.2).entries = table.entries ++ [entry] :=
      insert_of_lt habove
    have hrest : Ascending ((table.put entry.1 entry.2).entries ++ added) := by
      rw [hput, List.append_assoc]
      exact h
    refine (ih hrest).trans ?_
    rw [hput, List.append_assoc]
    rfl

theorem entries_deleteAll_filter (table : OrderedTable K V) (p : K → Bool) :
    (table.deleteAll ((table.entries.map Prod.fst).filter p)).entries =
      table.entries.filter fun entry => !p entry.1 := by
  rw [entries_deleteAll]
  refine List.filter_congr fun entry hentry => ?_
  have hmem : entry.1 ∈ table.entries.map Prod.fst := List.mem_map_of_mem hentry
  simp only [List.mem_filter, hmem, true_and]
  cases p entry.1 <;> rfl

theorem takeWhile_le {keys : List K} (h : keys.Pairwise (· < ·)) (bound : K) :
    keys.takeWhile (· ≤ bound) = keys.filter (· ≤ bound) := by
  induction keys with
  | nil => rfl
  | cons key keys ih =>
    obtain ⟨hhead, hrest⟩ := List.pairwise_cons.1 h
    by_cases hkey : key ≤ bound
    · simp [hkey, ih hrest]
    · have hnone : keys.filter (· ≤ bound) = [] := by
        refine List.filter_eq_nil_iff.2 fun other hother => ?_
        simpa using (not_le.1 hkey).trans (hhead other hother)
      simp [hkey, hnone]

theorem keys_ascending (table : OrderedTable K V) :
    (table.entries.map Prod.fst).Pairwise (· < ·) := List.pairwise_map.2 table.ascending

end OrderedTable
