import Beryl.FiniteMap

/-!
# Ordered sets and reverse indexes

An ordered set is an ordered table without values.  A reverse index lists, for every item,
the owners that hold it; an item without owners has no entry.  What an index says is the
relation `Listed`, and adding and removing one owner change exactly one pair of it.
-/

abbrev OrderedSet (K : Type*) [LinearOrder K] := OrderedTable K Unit

namespace OrderedSet

variable {K : Type*} [LinearOrder K]

instance : Membership K (OrderedSet K) := ⟨fun set key => set.get key = some ()⟩

instance (set : OrderedSet K) (key : K) : Decidable (key ∈ set) :=
  inferInstanceAs (Decidable (set.get key = some ()))

def add (set : OrderedSet K) (key : K) : OrderedSet K := set.put key ()

def remove (set : OrderedSet K) (key : K) : OrderedSet K := set.delete key

def toList (set : OrderedSet K) : List K := set.entries.map Prod.fst

theorem add_comm (set : OrderedSet K) (key key' : K) :
    add (add set key) key' = add (add set key') key := by
  apply OrderedTable.ext_get
  intro other
  unfold add
  simp only [OrderedTable.get_put]
  split
  · simp
  · rfl

instance : LeftCommutative fun (key : K) (set : OrderedSet K) => add set key :=
  ⟨fun key key' set => add_comm set key' key⟩

def ofMultiset (keys : Multiset K) : OrderedSet K :=
  keys.foldr (fun key set => add set key) OrderedTable.empty

variable {set : OrderedSet K} {key key' : K}

@[simp] theorem not_mem_empty : key ∉ (OrderedTable.empty : OrderedSet K) := nofun

@[simp] theorem mem_add : key' ∈ add set key ↔ key' = key ∨ key' ∈ set := by
  change (set.put key ()).get key' = some () ↔ _ ∨ set.get key' = some ()
  rw [OrderedTable.get_put]
  by_cases hkey : key' = key
  · simp [hkey]
  · simp [hkey]

@[simp] theorem mem_remove : key' ∈ remove set key ↔ key' ≠ key ∧ key' ∈ set := by
  change (set.delete key).get key' = some () ↔ _ ∧ set.get key' = some ()
  rw [OrderedTable.get_delete]
  by_cases hkey : key' = key
  · simp [hkey]
  · simp [hkey]

@[simp] theorem mem_toList : key ∈ toList set ↔ key ∈ set := by
  unfold toList
  rw [List.mem_map]
  constructor
  · rintro ⟨⟨found, value⟩, hentry, rfl⟩
    exact set.mem_entries_iff.1 hentry
  · intro hkey
    exact ⟨(key, ()), set.mem_entries_iff.2 hkey, rfl⟩

theorem toList_ascending (set : OrderedSet K) : (toList set).Pairwise (· < ·) :=
  set.keys_ascending

theorem le_getLast {last : K} (hmem : key ∈ set) (hlast : (toList set).getLast? = some last) :
    key ≤ last := by
  obtain ⟨found, hfound, hle⟩ := OrderedTable.exists_getLast_of_get hmem
  unfold toList at hlast
  rw [List.getLast?_map, hfound] at hlast
  cases hlast
  exact hle

theorem mem_ofMultiset {keys : Multiset K} : key ∈ ofMultiset keys ↔ key ∈ keys := by
  unfold ofMultiset
  induction keys using Multiset.induction_on with
  | empty => simp
  | cons head keys ih => rw [Multiset.foldr_cons, mem_add, ih, Multiset.mem_cons]

theorem eq_empty_of_entries (h : set.entries = []) : key ∉ set := by
  rw [← mem_toList]
  unfold toList
  rw [h]
  exact List.not_mem_nil

end OrderedSet

abbrev ReverseIndex (X K : Type*) [LinearOrder K] := HashMap X (OrderedSet K)

namespace ReverseIndex

variable {X K : Type*} [DecidableEq X] [LinearOrder K]

def Listed (index : ReverseIndex X K) (item : X) (owner : K) : Prop :=
  ∃ owners, index.lookup item = some owners ∧ owner ∈ owners

def list (index : ReverseIndex X K) (owner : K) (item : X) : ReverseIndex X K :=
  index.insert item (OrderedSet.add ((index.lookup item).getD .empty) owner)

def unlist (index : ReverseIndex X K) (owner : K) (item : X) : ReverseIndex X K :=
  match index.lookup item with
  | none => index
  | some owners =>
    if (OrderedSet.remove owners owner).entries = [] then index.erase item
    else index.insert item (OrderedSet.remove owners owner)

def listAll (index : ReverseIndex X K) (owner : K) (items : List X) : ReverseIndex X K :=
  items.foldl (fun index item => index.list owner item) index

def unlistAll (index : ReverseIndex X K) (owner : K) (items : List X) : ReverseIndex X K :=
  items.foldl (fun index item => index.unlist owner item) index

variable {index : ReverseIndex X K} {item item' : X} {owner owner' : K} {items : List X}

@[simp] theorem not_listed_empty : ¬Listed (∅ : ReverseIndex X K) item owner := by
  rintro ⟨owners, hlookup, -⟩
  rw [Finmap.lookup_empty] at hlookup
  cases hlookup

theorem listed_list : (index.list owner item).Listed item' owner' ↔
    (item' = item ∧ owner' = owner) ∨ index.Listed item' owner' := by
  unfold Listed list
  rw [HashMap.lookup_insert_eq]
  by_cases hitem : item' = item
  · subst hitem
    rw [if_pos rfl]
    cases hlookup : index.lookup item' with
    | none | some => simp
  · rw [if_neg hitem]
    simp [hitem]

theorem listed_unlist : (index.unlist owner item).Listed item' owner' ↔
    ¬(item' = item ∧ owner' = owner) ∧ index.Listed item' owner' := by
  unfold unlist
  split
  next hnone =>
    constructor
    · rintro ⟨owners, hlookup, howner⟩
      refine ⟨?_, owners, hlookup, howner⟩
      rintro ⟨rfl, -⟩
      cases hnone.symm.trans hlookup
    · exact And.right
  next owners howners =>
    by_cases hitem : item' = item
    · subst hitem
      have hlisted : index.Listed item' owner' ↔ owner' ∈ owners := by
        unfold Listed
        rw [howners]
        simp
      rw [hlisted]
      split
      next hempty =>
        have hgone : owner' ∉ OrderedSet.remove owners owner :=
          OrderedSet.eq_empty_of_entries hempty
        rw [OrderedSet.mem_remove] at hgone
        unfold Listed
        rw [HashMap.lookup_erase_eq, if_pos rfl]
        simp only [reduceCtorEq, false_and, exists_false, true_and, false_iff]
        exact hgone
      next =>
        unfold Listed
        rw [HashMap.lookup_insert_eq, if_pos rfl]
        simp
    · split
      next =>
        unfold Listed
        rw [HashMap.lookup_erase_eq, if_neg hitem]
        simp [hitem]
      next =>
        unfold Listed
        rw [HashMap.lookup_insert_eq, if_neg hitem]
        simp [hitem]

theorem listed_listAll : (index.listAll owner items).Listed item' owner' ↔
    (item' ∈ items ∧ owner' = owner) ∨ index.Listed item' owner' := by
  unfold listAll
  induction items generalizing index with
  | nil => simp
  | cons item items ih =>
    rw [List.foldl_cons, ih, listed_list, List.mem_cons]
    tauto

theorem listed_unlistAll : (index.unlistAll owner items).Listed item' owner' ↔
    ¬(item' ∈ items ∧ owner' = owner) ∧ index.Listed item' owner' := by
  unfold unlistAll
  induction items generalizing index with
  | nil => simp
  | cons item items ih =>
    rw [List.foldl_cons, ih, listed_unlist, List.mem_cons]
    tauto

end ReverseIndex
