import Beryl.History
import Beryl.WorkerReports
import Mathlib.Data.Finset.Sort

/-!
# Changes that wait for a block report

A worker keeps, for every group, the blocks that changed since metadata acknowledged them,
with the revision of the last change.  The set is bounded: a change that does not fit gives up
the whole set, and the worker reports everything again from a full snapshot.
-/

namespace Beryl

open History HashMap

def maxReportEntries : ℕ := 1000

structure DirtyBlock where
  blockId : BlockId
  revision : ℕ
deriving DecidableEq

structure GroupChanges where
  revision : ℕ
  dirty : HashMap BlockId ℕ
  continuityLost : Bool

namespace GroupChanges

def default : GroupChanges := ⟨0, ∅, false⟩

/-- `none` is the panic on an exhausted revision; it poisons the lock of the tracker. -/
def record (changes : GroupChanges) (blockId : BlockId) : Option GroupChanges :=
  (checkedAddU64 changes.revision 1).map fun revision =>
    if changes.continuityLost then { changes with revision }
    else if (changes.dirty.lookup blockId).isSome ∨ changes.dirty.len < maxReportEntries then
      { changes with revision, dirty := changes.dirty.insert blockId revision }
    else { revision, dirty := ∅, continuityLost := true }

def beginFullSnapshot (changes : GroupChanges) : GroupChanges :=
  { changes with dirty := ∅, continuityLost := false }

def snapshot (changes : GroupChanges) : Except Unit (List DirtyBlock) :=
  if changes.continuityLost then .error ()
  else .ok ((changes.dirty.keys.sort (· ≤ ·)).filterMap fun blockId =>
    (changes.dirty.lookup blockId).map fun revision => ⟨blockId, revision⟩)

def acknowledgeEntry (dirty : HashMap BlockId ℕ) (entry : DirtyBlock) : HashMap BlockId ℕ :=
  if (dirty.lookup entry.blockId).any (· ≤ entry.revision) then dirty.erase entry.blockId
  else dirty

def acknowledge (changes : GroupChanges) (acknowledged : List DirtyBlock) : GroupChanges :=
  { changes with dirty := acknowledged.foldl acknowledgeEntry changes.dirty }

def acknowledgeFull (changes : GroupChanges) (snapshotRevision : ℕ) : GroupChanges :=
  { changes with dirty := changes.dirty.filterMap fun _ revision =>
      if snapshotRevision < revision then some revision else none }

end GroupChanges

abbrev BlockReportChangeTracker := HashMap GroupName GroupChanges

inductive TrackerCall
  | record (blockId : BlockId)
  | beginFullSnapshot
  | snapshot
  | acknowledge (acknowledged : List DirtyBlock)
  | acknowledgeFull (snapshotRevision : ℕ)

namespace BlockReportChangeTracker

def changes (tracker : BlockReportChangeTracker) (groupName : GroupName) : GroupChanges :=
  (tracker.lookup groupName).getD .default

def record (tracker : BlockReportChangeTracker) (groupName : GroupName) (blockId : BlockId) :
    Option BlockReportChangeTracker :=
  ((tracker.changes groupName).record blockId).map (tracker.insert groupName)

def beginFullSnapshot (tracker : BlockReportChangeTracker) (groupName : GroupName) :
    ℕ × BlockReportChangeTracker :=
  ((tracker.changes groupName).revision,
    tracker.insert groupName (tracker.changes groupName).beginFullSnapshot)

def snapshot (tracker : BlockReportChangeTracker) (groupName : GroupName) :
    Except Unit (List DirtyBlock) :=
  match tracker.lookup groupName with
  | none => .ok []
  | some changes => changes.snapshot

/-- Calls that look a group up with `get_mut` leave an unknown group unknown. -/
def modify (tracker : BlockReportChangeTracker) (groupName : GroupName)
    (change : GroupChanges → GroupChanges) : BlockReportChangeTracker :=
  match tracker.lookup groupName with
  | none => tracker
  | some changes => tracker.insert groupName (change changes)

def acknowledge (tracker : BlockReportChangeTracker) (groupName : GroupName)
    (acknowledged : List DirtyBlock) : BlockReportChangeTracker :=
  tracker.modify groupName fun changes => changes.acknowledge acknowledged

def acknowledgeFull (tracker : BlockReportChangeTracker) (groupName : GroupName)
    (snapshotRevision : ℕ) : Bool × BlockReportChangeTracker :=
  ((tracker.lookup groupName).all fun changes => !changes.continuityLost,
    tracker.modify groupName fun changes => changes.acknowledgeFull snapshotRevision)

def after (tracker : BlockReportChangeTracker) (groupName : GroupName) :
    TrackerCall → Option BlockReportChangeTracker
  | .record blockId => tracker.record groupName blockId
  | .beginFullSnapshot => some (tracker.beginFullSnapshot groupName).2
  | .snapshot => some tracker
  | .acknowledge acknowledged => some (tracker.acknowledge groupName acknowledged)
  | .acknowledgeFull snapshotRevision =>
    some (tracker.acknowledgeFull groupName snapshotRevision).2

abbrev Interleaving :=
  Run (fun (tracker : BlockReportChangeTracker) (label : GroupName × TrackerCall) tracker' =>
    tracker.after label.1 label.2 = some tracker') (fun _ _ _ => True) ∅

end BlockReportChangeTracker

/-! ## One group -/

/-- The call acknowledges the block with this revision or a later one. -/
def TrackerCall.Acknowledges (blockId : BlockId) (revision : ℕ) : TrackerCall → Prop
  | .acknowledge acknowledged => ∃ entry ∈ acknowledged,
      entry.blockId = blockId ∧ revision ≤ entry.revision
  | .acknowledgeFull snapshotRevision => revision ≤ snapshotRevision
  | _ => False

namespace GroupChanges

def after (changes : GroupChanges) : TrackerCall → Option GroupChanges
  | .record blockId => changes.record blockId
  | .beginFullSnapshot => some changes.beginFullSnapshot
  | .snapshot => some changes
  | .acknowledge acknowledged => some (changes.acknowledge acknowledged)
  | .acknowledgeFull snapshotRevision => some (changes.acknowledgeFull snapshotRevision)

def Owes (changes : GroupChanges) (blockId : BlockId) (revision : ℕ) : Prop :=
  changes.dirty.lookup blockId = some revision ∨ changes.continuityLost = true

variable {changes changes' : GroupChanges} {blockId : BlockId} {revision : ℕ} {call : TrackerCall}

theorem record_cases (h : changes.record blockId = some changes') :
    (changes.continuityLost = true ∧ changes' = { changes with revision := changes'.revision }) ∨
    (((changes.dirty.lookup blockId).isSome ∨ changes.dirty.len < maxReportEntries) ∧ changes' =
      { changes with
        revision := changes'.revision
        dirty := changes.dirty.insert blockId changes'.revision }) ∨
    changes' = ⟨changes'.revision, ∅, true⟩ := by
  unfold record at h
  obtain ⟨revision, _, heq⟩ := Option.map_eq_some_iff.1 h
  split at heq
  next hlost =>
    subst heq
    exact .inl ⟨hlost, rfl⟩
  next =>
    split at heq
    next hroom =>
      subst heq
      exact .inr (.inl ⟨hroom, rfl⟩)
    next =>
      subst heq
      exact .inr (.inr rfl)

theorem record_owes (h : changes.record blockId = some changes') :
    changes'.Owes blockId changes'.revision := by
  rcases record_cases h with ⟨hlost, heq⟩ | ⟨_, heq⟩ | heq
  · rw [heq]
    exact .inr hlost
  · rw [heq]
    exact .inl (by simp)
  · rw [heq]
    exact .inr rfl

theorem lookup_acknowledge {dirty : HashMap BlockId ℕ}
    (hdirty : dirty.lookup blockId = some revision)
    (acknowledged : List DirtyBlock) (hnone : ∀ entry ∈ acknowledged,
      entry.blockId = blockId → ¬revision ≤ entry.revision) :
    (acknowledged.foldl acknowledgeEntry dirty).lookup blockId = some revision := by
  induction acknowledged generalizing dirty with
  | nil => exact hdirty
  | cons entry rest ih =>
    apply ih
    · unfold acknowledgeEntry
      split
      next hcovered =>
        rw [lookup_erase_eq]
        have hother : blockId ≠ entry.blockId := by
          intro heq
          rw [← heq, hdirty] at hcovered
          exact hnone entry List.mem_cons_self heq.symm (by simpa using hcovered)
        rw [if_neg hother, hdirty]
      next => exact hdirty
    · intro other hmem
      exact hnone other (List.mem_cons_of_mem _ hmem)

/-- A change stays owed until it is acknowledged, recorded again or covered by a full snapshot. -/
theorem Owes.after (h : changes.Owes blockId revision) (hafter : changes.after call = some changes')
    (hrecord : call ≠ .record blockId) (hbegin : call ≠ .beginFullSnapshot)
    (hacknowledge : ¬call.Acknowledges blockId revision) : changes'.Owes blockId revision := by
  cases call with
  | record other =>
    have hother : blockId ≠ other := fun heq => hrecord (congrArg _ heq.symm)
    rcases record_cases hafter with ⟨hlost, heq⟩ | ⟨_, heq⟩ | heq
    · rw [heq]
      exact .inr hlost
    · rw [heq]
      simpa [Owes, lookup_insert_eq, hother] using h
    · rw [heq]
      exact .inr rfl
  | beginFullSnapshot => exact absurd rfl hbegin
  | snapshot =>
    cases hafter
    exact h
  | acknowledge =>
    cases hafter
    rcases h with hdirty | hlost
    · left
      apply lookup_acknowledge hdirty
      intro entry hmem hblock hle
      exact hacknowledge ⟨entry, hmem, hblock, hle⟩
    · exact .inr hlost
  | acknowledgeFull =>
    cases hafter
    rcases h with hdirty | hlost
    · left
      unfold acknowledgeFull
      rw [lookup_filterMap, hdirty]
      exact if_pos (not_le.1 hacknowledge)
    · exact .inr hlost

theorem lost_after (hlost : changes.continuityLost = true)
    (hafter : changes.after call = some changes') (hbegin : call ≠ .beginFullSnapshot) :
    changes'.continuityLost = true := by
  cases call with
  | record =>
    rcases record_cases hafter with ⟨_, heq⟩ | ⟨_, heq⟩ | heq <;> rw [heq]
    · exact hlost
    · exact hlost
  | beginFullSnapshot => exact absurd rfl hbegin
  | snapshot | acknowledge | acknowledgeFull =>
    cases hafter
    exact hlost

theorem len_acknowledge (dirty : HashMap BlockId ℕ) (acknowledged : List DirtyBlock) :
    (acknowledged.foldl acknowledgeEntry dirty).len ≤ dirty.len := by
  induction acknowledged generalizing dirty with
  | nil => exact le_refl _
  | cons entry rest ih =>
    refine (ih _).trans ?_
    unfold acknowledgeEntry
    split
    next hcovered =>
      obtain ⟨revision, hdirty, _⟩ := (Option.any_eq_true _ _).1 hcovered
      exact Nat.le_of_succ_le (len_erase hdirty).le
    next => exact le_refl _

theorem acknowledge_default (acknowledged : List DirtyBlock) :
    default.acknowledge acknowledged = default := by
  induction acknowledged with
  | nil => rfl
  | cons entry rest ih => exact ih

theorem bounded_after (h : changes.dirty.len ≤ maxReportEntries)
    (hafter : changes.after call = some changes') : changes'.dirty.len ≤ maxReportEntries := by
  cases call with
  | record blockId =>
    rcases record_cases hafter with ⟨_, heq⟩ | ⟨hroom, heq⟩ | heq
    · rw [heq]
      exact h
    · rw [heq]
      cases hdirty : changes.dirty.lookup blockId with
      | none =>
        have hlt : changes.dirty.len < maxReportEntries := by simpa [hdirty] using hroom
        exact (len_insert _ hdirty).trans_le hlt
      | some =>
        exact (len_replace _ hdirty).trans_le h
    · rw [heq]
      exact Nat.zero_le _
  | beginFullSnapshot =>
    cases hafter
    exact Nat.zero_le _
  | snapshot =>
    cases hafter
    exact h
  | acknowledge =>
    cases hafter
    exact (len_acknowledge _ _).trans h
  | acknowledgeFull =>
    cases hafter
    exact (len_filterMap_le _ _).trans h

end GroupChanges

/-! ## Interleavings -/

namespace BlockReportChangeTracker

variable {tracker tracker' : BlockReportChangeTracker} {groupName : GroupName}
  {past : List (Transition BlockReportChangeTracker (GroupName × TrackerCall))}

theorem changes_insert (tracker : BlockReportChangeTracker) (groupName other : GroupName)
    (changes : GroupChanges) : BlockReportChangeTracker.changes (tracker.insert groupName changes)
      other = if other = groupName then changes else tracker.changes other := by
  unfold BlockReportChangeTracker.changes
  rw [lookup_insert_eq]
  split <;> rfl

theorem changes_modify (tracker : BlockReportChangeTracker) (groupName : GroupName)
    (change : GroupChanges → GroupChanges) (hdefault : change .default = .default)
    (name : GroupName) : BlockReportChangeTracker.changes (tracker.modify groupName change) name =
      if name = groupName then change (tracker.changes groupName) else tracker.changes name := by
  unfold modify
  cases hgroup : tracker.lookup groupName with
  | none =>
    by_cases hname : name = groupName
    · rw [if_pos hname, hname]
      unfold BlockReportChangeTracker.changes
      rw [hgroup, Option.getD_none, hdefault]
    · rw [if_neg hname]
  | some changes =>
    have hchanges : tracker.changes groupName = changes := by
      unfold BlockReportChangeTracker.changes
      rw [hgroup, Option.getD_some]
    rw [hchanges]
    exact changes_insert tracker groupName name (change changes)

theorem changes_after {label : GroupName × TrackerCall}
    (h : tracker.after label.1 label.2 = some tracker') : (label.1 = groupName ∧
        (tracker.changes groupName).after label.2 = some (tracker'.changes groupName)) ∨
      label.1 ≠ groupName ∧ tracker'.changes groupName = tracker.changes groupName := by
  obtain ⟨other, call⟩ := label
  have hput : ∃ changes', (tracker.changes other).after call = some changes' ∧
      ∀ name, tracker'.changes name = if name = other then changes' else tracker.changes name := by
    cases call with
    | record =>
      obtain ⟨changes', hchanges, rfl⟩ := Option.map_eq_some_iff.1 h
      exact ⟨changes', hchanges, fun name => changes_insert tracker other name changes'⟩
    | beginFullSnapshot =>
      cases h
      exact ⟨_, rfl, fun name => changes_insert tracker other name _⟩
    | snapshot =>
      cases h
      refine ⟨_, rfl, fun name => ?_⟩
      split
      next heq => rw [heq]
      next => rfl
    | acknowledge acknowledged =>
      cases h
      exact ⟨_, rfl, changes_modify tracker other _ (GroupChanges.acknowledge_default acknowledged)⟩
    | acknowledgeFull =>
      cases h
      exact ⟨_, rfl, changes_modify tracker other _ rfl⟩
  obtain ⟨changes', hafter, hchanges⟩ := hput
  by_cases hgroup : other = groupName
  · rw [hgroup] at hafter
    rw [hchanges, if_pos hgroup.symm]
    exact .inl ⟨hgroup, hafter⟩
  · exact .inr ⟨hgroup, by rw [hchanges, if_neg (Ne.symm hgroup)]⟩

theorem snapshot_lost : tracker.snapshot groupName = .error () ↔
    (tracker.changes groupName).continuityLost = true := by
  unfold snapshot BlockReportChangeTracker.changes
  cases tracker.lookup groupName with
  | none => simp [GroupChanges.default]
  | some => simp [GroupChanges.snapshot]

theorem snapshot_beginFullSnapshot (tracker : BlockReportChangeTracker) (groupName : GroupName) :
    (tracker.beginFullSnapshot groupName).2.snapshot groupName = .ok [] := by
  unfold beginFullSnapshot BlockReportChangeTracker.snapshot
  simp [GroupChanges.snapshot, GroupChanges.beginFullSnapshot]

/-- The dirty set is bounded; a change recorded since the last full snapshot stays dirty with its
revision until that revision or a later one is acknowledged, unless continuity is lost; and
continuity stays lost until the next full snapshot, which ends the loss. -/
theorem recorded_changes_are_kept (hrun : Interleaving past tracker) (groupName : GroupName) :
    (tracker.changes groupName).dirty.len ≤ maxReportEntries ∧
    (∀ newer t older blockId, past = newer ++ t :: older → t.label = (groupName, .record blockId) →
      (∀ u ∈ newer, u.label ≠ (groupName, .record blockId)) →
      (∀ u ∈ newer, u.label ≠ (groupName, .beginFullSnapshot)) →
      (tracker.changes groupName).dirty.lookup blockId = some (t.after.changes groupName).revision ∨
      (∃ u ∈ newer, u.label.1 = groupName ∧
        u.label.2.Acknowledges blockId (t.after.changes groupName).revision) ∨
      tracker.snapshot groupName = .error ()) ∧
    (∀ newer t older, past = newer ++ t :: older → t.after.snapshot groupName = .error () →
      (∀ u ∈ newer, u.label ≠ (groupName, .beginFullSnapshot)) →
      tracker.snapshot groupName = .error ()) ∧
    ∀ t ∈ past, t.label = (groupName, .beginFullSnapshot) →
      t.after.snapshot groupName = .ok [] := by
  refine ⟨?_, ?_, ?_, ?_⟩
  · apply Run.invariant hrun (Nat.zero_le _)
    intro past tracker label tracker' _ hbounded _ hstep
    rcases changes_after hstep with ⟨_, hafter⟩ | ⟨_, hsame⟩
    · exact GroupChanges.bounded_after hbounded hafter
    · rw [hsame]
      exact hbounded
  · intro newer t older blockId hpast hlabel hrecords hbegins
    rw [or_left_comm]
    by_cases hacknowledged : ∃ u ∈ newer, u.label.1 = groupName ∧
        u.label.2.Acknowledges blockId (t.after.changes groupName).revision
    · exact .inl hacknowledged
    · right
      have howes : (tracker.changes groupName).Owes blockId
          (t.after.changes groupName).revision := by
        rw [hpast] at hrun
        apply Run.since hrun
        · obtain ⟨_, _, _, hstep⟩ := hrun.of_mem (List.mem_append_right _ List.mem_cons_self)
          rw [hlabel] at hstep
          rcases changes_after hstep with ⟨_, hrecord⟩ | ⟨hother, _⟩
          · exact GroupChanges.record_owes hrecord
          · exact absurd rfl hother
        · intro u hu _ _ hbefore hstep
          rcases changes_after hstep with ⟨hgroup, hafter⟩ | ⟨_, hsame⟩
          · apply hbefore.after hafter
            · intro hrecord
              exact hrecords u hu (Prod.ext hgroup hrecord)
            · intro hbegin
              exact hbegins u hu (Prod.ext hgroup hbegin)
            · intro hcovers
              exact hacknowledged ⟨u, hu, hgroup, hcovers⟩
          · rw [hsame]
            exact hbefore
      exact howes.imp id snapshot_lost.2
  · intro newer t older hpast hlost hbegins
    rw [hpast] at hrun
    rw [snapshot_lost] at hlost ⊢
    apply Run.since hrun hlost
    intro u hu _ _ hbefore hstep
    rcases changes_after hstep with ⟨hgroup, hafter⟩ | ⟨_, hsame⟩
    · exact GroupChanges.lost_after hbefore hafter fun hbegin =>
        hbegins u hu (Prod.ext hgroup hbegin)
    · rw [hsame]
      exact hbefore
  · intro t ht hlabel
    obtain ⟨_, _, _, hstep⟩ := hrun.of_mem ht
    rw [hlabel] at hstep
    rw [← Option.some.inj hstep]
    exact snapshot_beginFullSnapshot t.before groupName

/-- A block that changed twice, whose first change was acknowledged. -/
theorem recorded_changes_are_kept_twice : ∃ past tracker, Interleaving past tracker ∧
    (tracker.changes ⟨"root", checkGroupName_root⟩).dirty.lookup ⟨1, 0⟩ = some 2 ∧
    (tracker.changes ⟨"root", checkGroupName_root⟩).dirty.len ≤ maxReportEntries := by
  let root : GroupName := ⟨"root", checkGroupName_root⟩
  have hfirst : Interleaving [⟨∅, (root, .record ⟨1, 0⟩), _⟩] _ := .next .start trivial rfl
  have hsecond : Interleaving (⟨_, (root, .record ⟨1, 0⟩), _⟩ :: _) _ := .next hfirst trivial rfl
  have hthird : Interleaving (⟨_, (root, .acknowledge [⟨⟨1, 0⟩, 1⟩]), _⟩ :: _) _ :=
    .next hsecond trivial rfl
  exact ⟨_, _, hthird, rfl, (recorded_changes_are_kept hthird root).1⟩

end BlockReportChangeTracker

end Beryl
