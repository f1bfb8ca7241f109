import Beryl.FiniteMap
import Beryl.History
import Beryl.Types

/-!
# The mount table

The table keeps the mounts by id, and an index from mount prefixes to ids.  `build_replacement`
fills both from stored mounts; `upsert` changes one mount.  An upsert takes the old prefix of its
mount out of the index before it knows whether the new prefix is free, so a refused move of a
mount leaves the mount without an index entry.
-/

namespace Beryl

open History HashMap

structure MountTableState where
  entries : HashMap MountId MountEntry
  prefixIndex : HashMap String MountId
  epoch : ℕ

namespace MountTableState

def new : MountTableState := ⟨∅, ∅, 1⟩

/-- The loop of `build_replacement`, with the largest epoch so far. -/
def loadMounts : List MountEntry → MountTableState → MetadataResult MountTableState
  | [], state => .ok state
  | entry :: rest, state =>
    if (state.entries.lookup entry.mountId).isSome then
      .error (.internal ("Duplicate mount ID in storage: " ++ debugId "MountId" entry.mountId))
    else
      match state.prefixIndex.lookup entry.mountPrefix with
      | some existingId =>
        .error (.internal (s!"Duplicate mount prefix in storage: {entry.mountPrefix}" ++
          " (mount_id: " ++ debugId "MountId" existingId ++ " and " ++
          debugId "MountId" entry.mountId ++ ")"))
      | none =>
        loadMounts rest
          { entries := state.entries.insert entry.mountId entry
            prefixIndex := state.prefixIndex.insert entry.mountPrefix entry.mountId
            epoch := max state.epoch entry.mountEpoch }

def buildReplacement (mounts : List MountEntry) : MetadataResult MountTableState :=
  match loadMounts mounts ⟨∅, ∅, 0⟩ with
  | .error error => .error error
  | .ok state =>
    match checkedAddU64 state.epoch 1 with
    | none => .error (.internal "Mount epoch exhausted while loading storage")
    | some epoch => .ok { state with epoch }

def withoutOldPrefix (state : MountTableState) (entry : MountEntry) : HashMap String MountId :=
  match state.entries.lookup entry.mountId with
  | some oldEntry =>
    if oldEntry.mountPrefix ≠ entry.mountPrefix then
      state.prefixIndex.erase oldEntry.mountPrefix
    else state.prefixIndex
  | none => state.prefixIndex

def upsert (state : MountTableState) (entry : MountEntry) :
    MetadataResult Unit × MountTableState :=
  let moved := { state with prefixIndex := state.withoutOldPrefix entry }
  let updated : MountTableState :=
    { entries := moved.entries.insert entry.mountId entry
      prefixIndex := moved.prefixIndex.insert entry.mountPrefix entry.mountId
      epoch := max entry.mountEpoch moved.epoch }
  match moved.prefixIndex.lookup entry.mountPrefix with
  | some existingId =>
    if existingId ≠ entry.mountId then
      (.error (.alreadyExists (s!"Mount prefix already exists: {entry.mountPrefix}" ++
        " (mount_id: " ++ debugId "MountId" existingId ++ ")")), moved)
    else (.ok (), updated)
  | none => (.ok (), updated)

def OneToOne (state : MountTableState) : Prop :=
  Inverts state.prefixIndex (fun entry : MountEntry => some entry.mountPrefix) state.entries ∧
    ∀ mountId entry, state.entries.lookup mountId = some entry → entry.mountId = mountId

def SameTable (state state' : MountTableState) : Prop :=
  state'.entries = state.entries ∧ state'.prefixIndex = state.prefixIndex

/-- The upsert would move an indexed mount to a prefix that another mount holds. -/
def Displaces (state : MountTableState) (entry : MountEntry) : Prop :=
  ∃ oldEntry owner, state.entries.lookup entry.mountId = some oldEntry ∧
    oldEntry.mountPrefix ≠ entry.mountPrefix ∧
    state.prefixIndex.lookup oldEntry.mountPrefix ≠ none ∧
    state.prefixIndex.lookup entry.mountPrefix = some owner ∧ owner ≠ entry.mountId

section Upsert

variable (state : MountTableState) (entry : MountEntry)

theorem lookup_withoutOldPrefix : (state.withoutOldPrefix entry).lookup entry.mountPrefix =
      state.prefixIndex.lookup entry.mountPrefix := by
  unfold withoutOldPrefix
  split
  next oldEntry _ =>
    split
    next hmoves =>
      rw [lookup_erase_eq, if_neg hmoves.symm]
    next => rfl
  next => rfl

/-- What an upsert does: it is refused because another mount has the prefix, or it is made. -/
theorem upsert_cases :
    (∃ owner error, state.prefixIndex.lookup entry.mountPrefix = some owner ∧
        owner ≠ entry.mountId ∧ state.upsert entry =
          (.error error, { state with prefixIndex := state.withoutOldPrefix entry })) ∨
      ((∀ owner, state.prefixIndex.lookup entry.mountPrefix = some owner →
          owner = entry.mountId) ∧
        state.upsert entry = (.ok (),
          { entries := state.entries.insert entry.mountId entry
            prefixIndex := (state.withoutOldPrefix entry).insert entry.mountPrefix entry.mountId
            epoch := max entry.mountEpoch state.epoch })) := by
  unfold upsert
  simp only [lookup_withoutOldPrefix]
  cases howner : state.prefixIndex.lookup entry.mountPrefix with
  | none =>
    refine .inr ⟨?_, rfl⟩
    intro owner hsome
    cases hsome
  | some owner =>
    by_cases hother : owner = entry.mountId
    · refine .inr ⟨?_, ?_⟩
      · intro owner' hsome
        cases hsome
        exact hother
      · simp only [hother, ne_eq, not_true_eq_false, if_false]
    · exact .inl ⟨owner, _, rfl, hother, if_pos hother⟩

theorem withoutOldPrefix_eq_iff : state.withoutOldPrefix entry = state.prefixIndex ↔
      ∀ oldEntry, state.entries.lookup entry.mountId = some oldEntry →
        oldEntry.mountPrefix ≠ entry.mountPrefix →
        state.prefixIndex.lookup oldEntry.mountPrefix = none := by
  unfold withoutOldPrefix
  cases hold : state.entries.lookup entry.mountId with
  | none => simp
  | some =>
    simp only [Option.some.injEq, forall_eq']
    split
    next hmoves =>
      constructor
      · intro hsame _
        rw [← hsame, lookup_erase_eq, if_pos rfl]
      · intro hnone
        refine Finmap.ext_lookup fun key => ?_
        rw [lookup_erase_eq]
        split
        next heq =>
          rw [heq]
          exact (hnone hmoves).symm
        next => rfl
    next hstays =>
      exact ⟨fun _ hmoves => absurd hmoves hstays, fun _ => rfl⟩

theorem refused_keeps_iff :
    ((state.upsert entry).1 ≠ .ok () → state.SameTable (state.upsert entry).2) ↔
      ¬state.Displaces entry := by
  rcases upsert_cases state entry with ⟨owner, error, howner, hother, heq⟩ | ⟨hown, heq⟩
  · rw [heq]
    simp only [ne_eq, reduceCtorEq, not_false_eq_true, forall_const]
    constructor
    · rintro ⟨-, hindex⟩ ⟨oldEntry, _, hold, hmoves, hindexed, -, -⟩
      exact hindexed ((withoutOldPrefix_eq_iff state entry).1 hindex oldEntry hold hmoves)
    · intro hkeeps
      refine ⟨rfl, (withoutOldPrefix_eq_iff state entry).2 ?_⟩
      intro oldEntry hold hmoves
      by_contra hindexed
      exact hkeeps ⟨oldEntry, owner, hold, hmoves, hindexed, howner, hother⟩
  · rw [heq]
    simp only [ne_eq, not_true_eq_false, false_implies, true_iff]
    rintro ⟨_, owner, -, -, -, howner, hother⟩
    exact hother (hown owner howner)

variable {state entry}

theorem OneToOne.insert (h : state.OneToOne) (hnew : state.entries.lookup entry.mountId = none)
    (hfree : state.prefixIndex.lookup entry.mountPrefix = none) (epoch : ℕ) :
    OneToOne ⟨state.entries.insert entry.mountId entry,
      state.prefixIndex.insert entry.mountPrefix entry.mountId, epoch⟩ := by
  refine ⟨h.1.insert hnew rfl hfree, ?_⟩
  intro mountId found hfound
  rw [lookup_insert_eq] at hfound
  split at hfound
  next hself =>
    cases hfound
    exact hself.symm
  next => exact h.2 mountId found hfound

theorem OneToOne.remove (h : state.OneToOne) {oldEntry : MountEntry}
    (hold : state.entries.lookup entry.mountId = some oldEntry) :
    OneToOne ⟨state.entries.erase entry.mountId, state.prefixIndex.erase oldEntry.mountPrefix,
      state.epoch⟩ := by
  refine ⟨h.1.erase hold rfl, ?_⟩
  intro mountId found hfound
  exact h.2 mountId found (lookup_of_erase hfound)

theorem OneToOne.update (h : state.OneToOne)
    (hown : ∀ owner, state.prefixIndex.lookup entry.mountPrefix = some owner →
      owner = entry.mountId) (epoch : ℕ) : OneToOne ⟨state.entries.insert entry.mountId entry,
      (state.withoutOldPrefix entry).insert entry.mountPrefix entry.mountId, epoch⟩ := by
  cases hold : state.entries.lookup entry.mountId with
  | none =>
    have hfree : state.prefixIndex.lookup entry.mountPrefix = none := by
      cases howner : state.prefixIndex.lookup entry.mountPrefix with
      | none => rfl
      | some owner =>
        obtain ⟨found, hfound, -⟩ := (h.1 _ _).1 howner
        rw [hown owner howner, hold] at hfound
        cases hfound
    have hkept : state.withoutOldPrefix entry = state.prefixIndex := by
      unfold withoutOldPrefix
      rw [hold]
    rw [hkept]
    exact h.insert hold hfree epoch
  | some oldEntry =>
    have hremoved := h.remove hold
    have hgone : (state.entries.erase entry.mountId).lookup entry.mountId = none := by
      rw [lookup_erase_eq, if_pos rfl]
    have hfree : (state.prefixIndex.erase oldEntry.mountPrefix).lookup entry.mountPrefix =
        none := by
      rw [lookup_erase_eq]
      split
      · rfl
      next hmoves =>
        cases howner : state.prefixIndex.lookup entry.mountPrefix with
        | none => rfl
        | some owner =>
          obtain ⟨found, hfound, hprefix⟩ := (h.1 _ _).1 howner
          rw [hown owner howner, hold] at hfound
          cases hfound
          exact absurd (Option.some.inj hprefix).symm hmoves
    have hinserted := hremoved.insert hgone hfree epoch
    simp only [insert_erase_self] at hinserted
    have hindex : (state.prefixIndex.erase oldEntry.mountPrefix).insert entry.mountPrefix
        entry.mountId =
        (state.withoutOldPrefix entry).insert entry.mountPrefix entry.mountId := by
      unfold withoutOldPrefix
      rw [hold]
      simp only
      split
      · rfl
      next hstays =>
        rw [not_not.1 hstays]
        exact insert_erase_self _ _ _
    rw [← hindex]
    exact hinserted

theorem OneToOne.upsert_iff (h : state.OneToOne) :
    (state.upsert entry).2.OneToOne ↔ ¬state.Displaces entry := by
  rcases upsert_cases state entry with ⟨owner, error, howner, hother, heq⟩ | ⟨hown, heq⟩
  · rw [heq]
    constructor
    · rintro ⟨hindex, -⟩ ⟨oldEntry, _, hold, hmoves, -, -, -⟩
      have hlost : (state.withoutOldPrefix entry).lookup oldEntry.mountPrefix = none := by
        unfold withoutOldPrefix
        rw [hold]
        simp only [ne_eq, hmoves, not_false_eq_true, if_true]
        rw [lookup_erase_eq, if_pos rfl]
      have hfound := (hindex oldEntry.mountPrefix entry.mountId).2 ⟨oldEntry, hold, rfl⟩
      rw [hlost] at hfound
      cases hfound
    · intro hkeeps
      have hsame : state.withoutOldPrefix entry = state.prefixIndex := by
        refine (withoutOldPrefix_eq_iff state entry).2 ?_
        intro oldEntry hold hmoves
        by_contra hindexed
        exact hkeeps ⟨oldEntry, owner, hold, hmoves, hindexed, howner, hother⟩
      rw [hsame]
      exact h
  · rw [heq]
    constructor
    · rintro - ⟨_, owner, -, -, -, howner, hother⟩
      exact hother (hown owner howner)
    · intro _
      exact h.update hown _

end Upsert

theorem new_oneToOne (epoch : ℕ) : OneToOne ⟨∅, ∅, epoch⟩ := by
  constructor
  · intro mountPrefix mountId
    simp
  · intro mountId entry hentry
    simp at hentry

theorem loadMounts_oneToOne (mounts : List MountEntry) :
    ∀ {state loaded : MountTableState}, state.OneToOne → loadMounts mounts state = .ok loaded →
      loaded.OneToOne := by
  induction mounts with
  | nil =>
    intro state loaded h hload
    cases hload
    exact h
  | cons entry rest ih =>
    intro state loaded h hload
    unfold loadMounts at hload
    split at hload
    · cases hload
    next hnew =>
      split at hload
      · cases hload
      next hfree =>
        apply ih (h.insert _ hfree _) hload
        simpa using hnew

theorem buildReplacement_oneToOne {mounts : List MountEntry} {state : MountTableState}
    (h : buildReplacement mounts = .ok state) : state.OneToOne := by
  unfold buildReplacement at h
  split at h
  · cases h
  next loaded hloaded =>
    split at h
    · cases h
    · cases h
      have hone : loaded.OneToOne := loadMounts_oneToOne mounts (new_oneToOne 0) hloaded
      exact ⟨hone.1, hone.2⟩

abbrev Upserts (start : MountTableState) :=
  Run (fun state entry state' => state' = (upsert state entry).2)
    (fun _ state (entry : MountEntry) => ¬state.Displaces entry) start

theorem Upserts.oneToOne {start state : MountTableState}
    {past : List (Transition MountTableState MountEntry)} (h : Upserts start past state)
    (hstart : start.OneToOne) : state.OneToOne := by
  refine Run.invariant h hstart ?_
  intro past state entry state' _ hstate hkeeps hstep
  rw [hstep]
  exact hstate.upsert_iff.2 hkeeps

/-- A refused upsert leaves the table, and an upsert keeps the two maps one to one, exactly if it
does not displace a mount; so the maps of a new or a loaded table stay one to one as long as no
upsert displaces one. -/
theorem upserts_keep_table (state : MountTableState) (entry : MountEntry) :
    (((upsert state entry).1 ≠ .ok () → state.SameTable (upsert state entry).2) ↔
      ¬state.Displaces entry) ∧
    (state.OneToOne → ((upsert state entry).2.OneToOne ↔ ¬state.Displaces entry)) ∧
    ∀ start past, (start = new ∨ ∃ mounts, buildReplacement mounts = .ok start) →
      Upserts start past state → state.OneToOne := by
  refine ⟨refused_keeps_iff state entry, fun h => h.upsert_iff, ?_⟩
  intro start past hstart hrun
  apply Upserts.oneToOne hrun
  rcases hstart with rfl | ⟨mounts, hloaded⟩
  · exact new_oneToOne 1
  · exact buildReplacement_oneToOne hloaded

def sampleMount (mountId : MountId) (mountPrefix : String) : MountEntry :=
  ⟨mountId, mountPrefix, .internal, none, .allow, 1, ⟨"root", checkGroupName_root⟩, 1⟩

def twoMounts : MountTableState :=
  (upsert (upsert new (sampleMount 1 "/a")).2 (sampleMount 2 "/b")).2

theorem upserts_keep_table_moved :
    twoMounts.OneToOne ∧ (upsert twoMounts (sampleMount 1 "/c")).2.OneToOne := by
  have hfirst : ¬new.Displaces (sampleMount 1 "/a") := by
    rintro ⟨_, owner, -, -, -, howner, -⟩
    cases howner
  have hsecond : ¬(upsert new (sampleMount 1 "/a")).2.Displaces (sampleMount 2 "/b") := by
    rintro ⟨_, owner, -, -, -, howner, -⟩
    cases howner
  have hrun : Upserts new _ twoMounts := .next (.next .start hfirst rfl) hsecond rfl
  obtain ⟨-, hkeeps, hruns⟩ := upserts_keep_table twoMounts (sampleMount 1 "/c")
  have htwo := hruns new _ (.inl rfl) hrun
  refine ⟨htwo, (hkeeps htwo).2 ?_⟩
  rintro ⟨_, owner, -, -, -, howner, -⟩
  cases howner

/-- Moving the mount of `/a` to `/b` is refused, and `/a` is no longer found. -/
theorem displaced_mount_is_lost :
    (∃ error, (upsert twoMounts (sampleMount 1 "/b")).1 = .error error) ∧
      twoMounts.prefixIndex.lookup "/a" = some 1 ∧
      (upsert twoMounts (sampleMount 1 "/b")).2.prefixIndex.lookup "/a" = none ∧
      (upsert twoMounts (sampleMount 1 "/b")).2.entries.lookup 1 = some (sampleMount 1 "/a") :=
  ⟨⟨_, rfl⟩, rfl, rfl, rfl⟩

end MountTableState

end Beryl
