import Beryl.Namespace

/-!
# Integrity of the namespace

What the namespace tables of a replica always satisfy: entries join existing
inodes of one mount, every inode has one place, and the allocator is ahead.  The
only demand on the commands is that a rename was built for a destination parent
that was a directory; since an inode never changes its kind, it still is one when
the rename is applied.
-/

namespace Beryl

open History BatchOp Store

section Step

variable {s : Store} {batch : WriteBatch} {command : Command} {success : ApplySuccess}

theorem Store.applyBatch_mounts (h : ∀ entry, BatchOp.putMount entry ∉ batch) :
    (s.applyBatch batch).mounts = s.mounts := by
  induction batch generalizing s with
  | nil => rfl
  | cons op rest ih =>
    have hrest : ∀ entry, putMount entry ∉ rest :=
      fun entry hentry => h entry (List.mem_cons_of_mem _ hentry)
    rw [applyBatch_cons, ih hrest]
    cases op with
    | putMount entry => exact absurd List.mem_cons_self (h entry)
    | _ => rfl

theorem Effect.mounts_eq (h : Effect s command success batch)
    (hmount : ∃ entry, s.mounts.get rootMountId = some entry) :
    (s.applyBatch batch).mounts = s.mounts := by
  apply applyBatch_mounts
  intro entry hentry
  cases h with
  | bootstrapped _ hmounts =>
    obtain ⟨existing, hexisting⟩ := hmount
    rw [hmounts] at hexisting
    cases hexisting
  | directoryMade => simp [createEntryOps] at hentry
  | directoriesMade =>
    unfold directoriesOps at hentry
    split at hentry <;> simp [RecursiveMkdirEntry.ops, createEntryOps] at hentry
  | fileMade _ _ _ _ _ _ _ hroom =>
    cases hroom <;> simp [createFileOps, createEntryOps, recordOps, evictionOps] at hentry
  | @renamed _ _ _ _ _ _ expectedDst =>
    cases expectedDst <;> simp [renameOps] at hentry
  | @reclaimed _ _ _ update _ _ _ => exact (update.reclaims hentry).elim
  | _ => simp [renameOps] at hentry

theorem Store.applyBatch_marker {i : InodeId} {root : DetachedRoot}
    (h : (s.applyBatch batch).marker i = some root) :
    s.marker i = some root ∨ BatchOp.putDetachedRoot i root ∈ batch := by
  have hop : ∀ (s : Store) (op : BatchOp) (value : DetachedRoot),
      (op.apply s).marker i = some value →
      s.marker i = some value ∨ op = .putDetachedRoot i value := by
    intro s op value hread
    cases op with
    | putDetachedRoot =>
      rcases OrderedTable.get_of_put hread with hread | ⟨rfl, rfl⟩
      · exact .inl hread
      · exact .inr rfl
    | deleteDetachedRoot => exact .inl (OrderedTable.get_of_delete hread)
    | _ => exact .inl hread
  rcases applyBatch_read (fun s => s.marker i)
    (fun op value => op = .putDetachedRoot i value) hop batch s h with h | ⟨op, hmem, rfl⟩
  · exact .inl h
  · exact .inr hmem

theorem Effect.marker_mount (hlinked : Linked s) (h : Effect s command success batch)
    {i : InodeId} {root : DetachedRoot} (hput : BatchOp.putDetachedRoot i root ∈ batch) :
    root.mountId = rootMountId := by
  cases h with
  | directoryMade => simp [createEntryOps] at hput
  | directoriesMade =>
    unfold directoriesOps at hput
    split at hput <;> simp [RecursiveMkdirEntry.ops, createEntryOps] at hput
  | fileMade _ _ _ _ _ _ _ hroom =>
    cases hroom <;> simp [createFileOps, createEntryOps, recordOps, evictionOps] at hput
  | directoryDetached htarget =>
    simp only [List.mem_cons, putDetachedRoot.injEq, reduceCtorEq, List.not_mem_nil, or_false,
      false_or] at hput
    rw [hput.2]
    exact hlinked.mountId_eq htarget.child_eq
  | @renamed _ _ _ _ _ _ expectedDst => cases expectedDst <;> simp [renameOps] at hput
  | reclaimed hplan =>
    obtain ⟨p, n, hmarker, _⟩ := hplan.marker_put hput
    exact hlinked.marker_mount hmarker
  | _ => simp [renameOps, bootstrapOps] at hput

theorem Effect.linked (hlinked : Linked s) (h : Effect s command success batch)
    (hdir : command.MovesIntoDirectory s) : Linked (s.applyBatch batch) := by
  have hany : command.MovesAs (fun _ _ _ => True) s := by
    cases command with
    | rename => exact fun _ _ _ => trivial
    | _ => trivial
  have hmounts := h.mounts_eq hlinked.mount_exists
  refine { h.keyed hlinked.toKeyed with
    forest := hlinked.forest.steps (h.steps hlinked hdir hany)
    mount_key := ?_, mount_exists := ?_, marker_mount := ?_ }
  · rw [hmounts]
    exact hlinked.mount_key
  · rw [hmounts]
    exact hlinked.mount_exists
  · intro i root hmarker
    rcases applyBatch_marker hmarker with hbefore | hput
    · exact hlinked.marker_mount hbefore
    · exact h.marker_mount hlinked hput

theorem Applies.linked {s' : Store} {entry : LogApply} (h : Applies s entry s')
    (hlinked : Linked s) (hdir : entry.command.MovesIntoDirectory s) : Linked s' := by
  rcases h.cases with ⟨success, batch, _, heffect, rfl⟩ | ⟨_, rfl⟩
  · exact heffect.linked hlinked hdir
  · exact hlinked

end Step

section Bootstrap

variable (t : ℕ) (group : GroupName)

theorem bootstrapped_inode (i : InodeId) : (Store.bootstrapped t group).inode i =
      if i = rootInodeId then some (rootInode t) else none := by
  have hid : (rootInode t).inodeId = rootInodeId := rfl
  simp [bootstrapped, bootstrapOps, apply, inode, empty, hid]

theorem bootstrapped_mount (m : MountId) : (Store.bootstrapped t group).mounts.get m =
      if m = rootMountId then some (rootMountEntry group) else none := by
  have hid : (rootMountEntry group).mountId = rootMountId := rfl
  simp [bootstrapped, bootstrapOps, apply, empty, hid]

theorem bootstrapped_dentry (p : InodeId) (n : String) :
    (Store.bootstrapped t group).dentry p n = none := by
  simp [bootstrapped, bootstrapOps, apply, dentry, empty]

theorem bootstrapped_marker (i : InodeId) : (Store.bootstrapped t group).marker i = none := by
  simp [bootstrapped, bootstrapOps, apply, marker, empty]

theorem bootstrapped_isMountRoot {i : InodeId} :
    (bootstrapped t group).IsMountRoot i ↔ i = rootInodeId := by
  simp only [Store.IsMountRoot, bootstrapped_mount]
  constructor
  · rintro ⟨m, entry, hentry, rfl⟩
    split at hentry
    · cases hentry
      rfl
    · cases hentry
  · rintro rfl
    exact ⟨rootMountId, rootMountEntry group, if_pos rfl, rfl⟩

theorem bootstrapped_inode_cases {i : InodeId} {inode : Inode}
    (h : (bootstrapped t group).inode i = some inode) : i = rootInodeId ∧ inode = rootInode t := by
  rw [bootstrapped_inode] at h
  split at h
  next hi => exact ⟨hi, (Option.some.inj h).symm⟩
  next => cases h

theorem Keyed.bootstrapped : Keyed (bootstrapped t group) where
  inodeId_eq h := by
    obtain ⟨rfl, rfl⟩ := bootstrapped_inode_cases t group h
    rfl
  inode_pos h := by
    obtain ⟨rfl, rfl⟩ := bootstrapped_inode_cases t group h
    exact Nat.one_pos
  inode_lt_next h := by
    obtain ⟨rfl, rfl⟩ := bootstrapped_inode_cases t group h
    exact ⟨2, rfl, Nat.one_lt_two⟩
  two_le_next h := by
    cases h
    exact le_rfl
  mountId_eq h := by
    obtain ⟨rfl, rfl⟩ := bootstrapped_inode_cases t group h
    rfl

theorem Linked.bootstrapped : Linked (Store.bootstrapped t group) := by
  have hchild : ∀ {p n c}, (Store.bootstrapped t group).forest.child p n ≠ some c := by
    intro p n c h
    have hnone := bootstrapped_dentry t group p n
    rw [show (Store.bootstrapped t group).dentry p n = some c from h] at hnone
    cases hnone
  have hmarker : ∀ {i}, ¬(Store.bootstrapped t group).forest.detached i :=
    fun h => h (bootstrapped_marker t group _)
  have hroot : (Store.bootstrapped t group).forest.kind rootInodeId = some .branch :=
    Store.kind_eq_branch.2 ⟨rootInode t, by rw [bootstrapped_inode, if_pos rfl], rfl⟩
  refine { Keyed.bootstrapped t group with
    forest :=
      { child_exists := fun h => absurd h hchild
        parent_branch := fun h => absurd h hchild
        entry_unique := fun h => absurd h hchild
        root_branch := ?_
        detached_branch := fun h => absurd h hmarker
        child_not_root := fun h => absurd h hchild
        child_not_detached := fun h => absurd h hchild
        root_not_detached := fun _ => hmarker
        placed := ?_ }
    mount_key := ?_, mount_exists := ?_, marker_mount := ?_ }
  · intro i hi
    rw [(bootstrapped_isMountRoot t group).1 hi]
    exact hroot
  · intro i hi
    obtain ⟨inode, hinode⟩ := Store.kind_ne_none.1 hi
    exact .inl ((bootstrapped_isMountRoot t group).2 (bootstrapped_inode_cases t group hinode).1)
  · intro m entry hentry
    rw [bootstrapped_mount] at hentry
    split at hentry
    next hm =>
      cases hentry
      exact ⟨hm, hm.symm⟩
    next => cases hentry
  · exact ⟨rootMountEntry group, by rw [bootstrapped_mount, if_pos rfl]⟩
  · intro i root hroot
    rw [bootstrapped_marker] at hroot
    cases hroot

end Bootstrap

def WasDirectory (past : Past) (s : Store) (i : InodeId) : Prop :=
  ∃ u ∈ visited past s, ∃ inode, u.inode i = some inode ∧ inode.kind = .dir

/-- A rename is applied for a destination parent that has been a directory. -/
def IntoDirectory (past : Past) (s : Store) (entry : LogApply) : Prop :=
  match entry.command with
  | .rename _ _ _ _ dstParentInodeId _ _ _ _ => WasDirectory past s dstParentInodeId
  | _ => True

section Runs

variable {admits : Past → Store → LogApply → Prop} {start s : Store} {past : Past}

theorem WasDirectory.kind_eq {i : InodeId} {inode : Inode}
    (hrun : Run Applies admits start past s) (hstart : Keyed start)
    (h : WasDirectory past s i) (hinode : s.inode i = some inode) : inode.kind = .dir := by
  obtain ⟨u, hu, old, hold, hdir⟩ := h
  obtain ⟨earlier, hearlier⟩ := Run.of_mem_visited hrun hu
  have hversion := (evolves_of_run hrun hstart hu).version
    (keyed_of_run hearlier hstart) hold hinode
  have hkind := hversion.kind
  rw [hdir] at hkind
  generalize inode.kind = kind at hkind
  cases hkind
  rfl

theorem IntoDirectory.moves {entry : LogApply} (hrun : Run Applies admits start past s)
    (hstart : Keyed start) (h : IntoDirectory past s entry) :
    entry.command.MovesIntoDirectory s := by
  unfold IntoDirectory at h
  cases hcommand : entry.command with
  | rename =>
    rw [hcommand] at h
    exact fun inode hinode => h.kind_eq hrun hstart hinode
  | _ => trivial

theorem linked_of_run (hadmits : ∀ {past s entry}, admits past s entry → IntoDirectory past s entry)
    (hrun : Run Applies admits start past s) (hstart : Linked start) : Linked s := by
  refine Run.invariant hrun hstart fun hrun hlinked hentry hstep => ?_
  exact hstep.linked hlinked ((hadmits hentry).moves hrun hstart.toKeyed)

end Runs

theorem Linked.placed {s : Store} (h : Linked s) {i : InodeId} {inode : Inode}
    (hinode : s.inode i = some inode) (hroot : ¬s.IsMountRoot i) :
    ((∃! entry : InodeId × String, s.dentry entry.1 entry.2 = some i) ∧ s.marker i = none) ∨
    ((∀ p n, s.dentry p n ≠ some i) ∧ s.marker i ≠ none) := by
  rcases h.forest.placed (kind_ne_none.2 ⟨inode, hinode⟩) with
    hmount | hmarker | ⟨p, n, hentry⟩
  · exact absurd hmount hroot
  · refine .inr ⟨fun p n hentry => ?_, hmarker⟩
    exact h.forest.child_not_detached hentry hmarker
  · refine .inl ⟨⟨(p, n), hentry, fun other hother => ?_⟩, h.child_unmarked hentry⟩
    obtain ⟨hparent, hname⟩ := h.entry_unique hother hentry
    exact Prod.ext hparent hname

/-- The namespace tables of every store that a run from bootstrap reaches. -/
theorem namespace_integrity {t : ℕ} {group : GroupName} {past : Past} {s : Store}
    (hrun : Run Applies IntoDirectory (Store.bootstrapped t group) past s) :
    (∀ p n c, s.dentry p n = some c → ∃ parent child,
      s.inode p = some parent ∧ parent.kind = .dir ∧
      s.inode c = some child ∧ child.mountId = parent.mountId) ∧
    (∀ i inode, s.inode i = some inode → ¬s.IsMountRoot i →
      ((∃! entry : InodeId × String, s.dentry entry.1 entry.2 = some i) ∧ s.marker i = none) ∨
      ((∀ p n, s.dentry p n ≠ some i) ∧ s.marker i ≠ none)) ∧
    (∀ i root, s.marker i = some root → ∃ inode, s.inode i = some inode ∧ inode.kind = .dir) ∧
    (∀ i inode, s.inode i = some inode → inode.inodeId = i) ∧
    ∃ next, s.nextInodeId = some next ∧ ∀ i inode, s.inode i = some inode → i < next := by
  have hlinked : Linked s := linked_of_run (fun h => h) hrun (.bootstrapped t group)
  refine ⟨?_, ?_, ?_, ?_, ?_⟩
  · intro p n c hentry
    obtain ⟨parent, hparent, hdir⟩ := hlinked.parent_dir hentry
    obtain ⟨child, hchild⟩ := hlinked.child_exists hentry
    refine ⟨parent, child, hparent, hdir, hchild, ?_⟩
    rw [hlinked.mountId_eq hchild, hlinked.mountId_eq hparent]
  · intro i inode hinode hroot
    exact hlinked.placed hinode hroot
  · intro i root hmarker
    exact (hlinked.marked_dir hmarker).2
  · intro i inode hinode
    exact hlinked.inodeId_eq hinode
  · obtain ⟨entry, hentry⟩ := hlinked.mount_exists
    obtain ⟨_, _, root, hroot, _⟩ := hlinked.mount_root hentry
    obtain ⟨next, hnext, _⟩ := hlinked.inode_lt_next hroot
    refine ⟨next, hnext, fun i inode hinode => ?_⟩
    obtain ⟨next', hnext', hlt⟩ := hlinked.inode_lt_next hinode
    rw [hnext] at hnext'
    cases hnext'
    exact hlt

theorem namespace_integrity_renamed :
    let run := healthyRun (bootstrapped 0 rootGroup)
      [.rename 2 1 "a" 2 1 "b" none none 0, .createDirectory 1 1 ["a"] .new false]
    Run Applies IntoDirectory (bootstrapped 0 rootGroup) run.1 run.2 ∧
      run.2.dentry 1 "b" = some 2 ∧ ∃ parent child, run.2.inode 1 = some parent ∧
        parent.kind = .dir ∧ run.2.inode 2 = some child ∧
        child.mountId = parent.mountId := by
  intro run
  have hrun : Run Applies IntoDirectory (bootstrapped 0 rootGroup) run.1 run.2 :=
    healthyRun_next (healthyRun_next .start trivial) ⟨_, self_mem_visited, _, rfl, rfl⟩
  exact ⟨hrun, rfl, (namespace_integrity hrun).1 1 "b" 2 rfl⟩

end Beryl
