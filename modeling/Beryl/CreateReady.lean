import Beryl.ReplayHistory

/-!
# File creations that succeed

A healthy store whose root is open takes a new file: the name is valid and unused,
the operation has no record, and the replay table has room or an expired record.
What such a creation leaves behind is read off its batch.
-/

namespace Beryl

open History Transaction Db

structure Store.RootOpen (s : Store) : Prop where
  mount : ∃ mount, s.mounts.get rootMountId = some mount ∧ mount.mountEpoch = 1 ∧
    mount.rootInodeId = rootInodeId
  root : ∃ root, s.inode rootInodeId = some root ∧ root.kind = .dir

structure Store.TakesFile (s : Store) (t : ℕ) (operationId : CreateFileOperationId)
    (name : String) : Prop extends s.RootOpen where
  valid : validateRelativeComponents "CreateFile" [name] = .ok ()
  unused : s.dentry rootInodeId name = none
  next_lt : s.next + 1 < 2 ^ 64
  unrecorded : s.createFileReplay.get operationId.key = none
  room : s.createFileReplayCount.getD 0 = maxCreateFileReplayRecords →
    ∃ record ∈ s.replayTable.recordSet, record.expiresAtMs ≤ t

section Create

variable {s : Store} {t deadline expires : ℕ} {operationId : CreateFileOperationId}
  {path name : String} {batch : WriteBatch} {record : CreateFileReplayRecord}

theorem evictExpiredReplay_succeeds (hreplay : ReplaySound s)
    (hexpired : ∃ record ∈ s.replayTable.recordSet, record.expiresAtMs ≤ t) :
    Ensures (evictExpiredReplay batch t) (.healthy s) (fun _ db' => db' = .healthy s)
      fun _ _ => False := by
  obtain ⟨expired, hmem, hle⟩ := hexpired
  have hexpiry := hreplay.record_expiry (hreplay.toConsistent.get_of_mem hmem)
  refine ensures_bind_of_ok rfl (okOr_bind (fun hnone => ?_) fun (key, value) hhead => ?_)
  · have hnil : s.createFileReplayExpiry.entries = [] := List.head?_eq_none_iff.1 hnone
    have hentry := s.createFileReplayExpiry.mem_entries_iff.2 hexpiry
    rw [hnil] at hentry
    cases hentry
  have hget := s.createFileReplayExpiry.mem_entries_iff.1 (List.mem_of_head? hhead)
  obtain ⟨record, hrecord, rfl⟩ := hreplay.toConsistent.inBijection.expiries.surjOn
    (show key ∈ _ by simp [hget])
  have hfirst := expiryKey_le (OrderedTable.head_le hhead hexpiry)
  have hstored := hreplay.toConsistent.get_of_mem hrecord
  refine failIf_bind (fun hlive => absurd hlive (not_lt.2 (hfirst.trans hle))) fun _ => ?_
  refine ensures_bind_of_ok rfl (okOr_bind_of_some hstored ?_)
  refine failIf_bind (fun hne => hne rfl) fun _ => ?_
  refine ensures_bind_of_ok rfl (okOr_bind_of_some (hreplay.record_indexed hstored) ?_)
  exact failIf_bind (fun hne => hne rfl) fun _ => ensures_pure rfl

theorem batchPutCreateFileReplay_succeeds (hreplay : ReplaySound s)
    (hrecord : s.createFileReplay.get record.operationId.key = none)
    (hindex : s.createFileReplayInode.get record.inodeId = none)
    (hroom : s.createFileReplayCount.getD 0 = maxCreateFileReplayRecords →
      ∃ record ∈ s.replayTable.recordSet, record.expiresAtMs ≤ t) :
    Ensures (batchPutCreateFileReplay batch record t) (.healthy s)
      (fun _ db' => db' = .healthy s) fun _ _ => False := by
  have hcount := hreplay.count_eq
  have hbound := hreplay.count_le
  refine ensures_bind_of_ok rfl (failIf_bind (fun hsome => ?_) fun _ => ?_)
  · exact absurd hsome (by simp [healthy, hrecord])
  refine ensures_bind_of_ok rfl (failIf_bind (fun hsome => ?_) fun _ => ?_)
  · exact absurd hsome (by simp [healthy, hindex])
  refine ensures_bind_of_ok rfl (failIf_bind (fun hgt => ?_) fun _ => ?_)
  · exact absurd hgt (not_lt.2 (hcount.le.trans hbound))
  split
  next hfull =>
    refine ensures_bind (ensures_bind ((evictExpiredReplay_succeeds hreplay (hroom hfull)).mono
      (fun _ _ h => ?_) fun _ _ h => h))
    subst h
    exact (rfl : healthy s = healthy s)
  next => exact (rfl : healthy s = healthy s)

theorem prepareInodeAllocation_succeeds (hkeyed : Keyed s) {root : Inode}
    (hroot : s.inode rootInodeId = some root) {next : InodeId}
    (hnext : s.nextInodeId = some next) (hbound : next + 1 < 2 ^ 64) :
    Ensures prepareInodeAllocation (.healthy s)
      (fun allocation db' => db' = .healthy s ∧ allocation = ⟨next, next + 1⟩)
      fun _ _ => False := by
  have hahead : ∀ {i inode}, s.inode i = some inode → i < next := by
    intro i inode hinode
    obtain ⟨next', hnext', hlt⟩ := hkeyed.inode_lt_next hinode
    rw [hnext] at hnext'
    cases hnext'
    exact hlt
  obtain ⟨⟨last, inode⟩, hlast, _⟩ := OrderedTable.exists_getLast_of_get hroot
  have hstored : s.inode last = some inode :=
    s.inodes.mem_entries_iff.1 (List.mem_of_getLast? hlast)
  have hfree : s.inode next = none := by
    by_contra hsome
    obtain ⟨inode, hinode⟩ := Option.ne_none_iff_exists'.1 hsome
    exact absurd (hahead hinode) (lt_irrefl _)
  have hmax : maxInodeId (.healthy s) = (.ok (some last), .healthy s) := by
    have hkey : s.lastInodeKey = some last := by simp [Store.lastInodeKey, hlast]
    have hpos : last ≠ 0 := (hkeyed.inode_pos hstored).ne'
    simp [maxInodeId, query, healthy, hkey, hpos, failIf, Bind.bind, Pure.pure]
  refine ensures_bind_of_ok rfl (okOr_bind_of_some hnext ?_)
  refine failIf_bind (fun hlt => absurd hlt (not_lt.2 (hkeyed.two_le_next hnext))) fun _ => ?_
  refine ensures_bind_of_ok hmax (okOr_bind_of_some rfl ?_)
  refine failIf_bind (fun hle => absurd hle (not_le.2 (hahead hstored))) fun _ => ?_
  refine ensures_bind_of_ok rfl (failIf_bind (fun hsome => ?_) fun _ => ?_)
  · exact absurd hsome (by simp [healthy, hfree])
  exact okOr_bind_of_some (checkedAddU64_of_lt hbound) (ensures_pure ⟨rfl, rfl⟩)

theorem resolveCreateParent_succeeds (hkeyed : Keyed s) (h : s.TakesFile t operationId name) :
    Ensures (resolveCreateParent rootMountId 1 rootInodeId [name]) (.healthy s)
      (fun target db' => db' = .healthy s ∧ target.1 = rootInodeId ∧ target.2.1 = name)
      fun _ _ => False := by
  obtain ⟨mount, hmount, hepoch, hmountRoot⟩ := h.mount
  obtain ⟨root, hroot, hdir⟩ := h.root
  have hrootId := hkeyed.inodeId_eq hroot
  have hrootMount := hkeyed.mountId_eq hroot
  unfold resolveCreateParent
  rw [h.valid]
  refine ensures_bind_of_ok (rfl : _ = (Except.ok (), _)) ?_
  refine ensures_bind_of_ok rfl (okOr_bind_of_some hmount ?_)
  refine failIf_bind (fun hbad => ?_) fun _ => ?_
  · simp [hepoch, hmountRoot] at hbad
  refine ensures_bind_of_ok rfl (okOr_bind_of_some hroot ?_)
  refine failIf_bind (fun hbad => ?_) fun _ => ?_
  · simp [hrootId, hrootMount, Inode.fileType, hdir] at hbad
  exact ensures_pure ⟨rfl, hrootId, rfl⟩

theorem validateInodeAllocationTargets_succeeds {next : InodeId}
    (hnext : s.nextInodeId = some next) (htwo : 2 ≤ next) (hfree : s.inode next = none)
    (hbound : next + 1 < 2 ^ 64) :
    Ensures (validateInodeAllocationTargets ⟨next, next + 1⟩ [next]) (.healthy s)
      (fun _ db' => db' = .healthy s) fun _ _ => False := by
  refine failIf_bind (fun hbad => ?_) fun _ => ?_
  · simp at hbad
    lia
  refine ensures_bind_of_ok rfl (okOr_bind_of_some hnext ?_)
  refine failIf_bind (fun hne => hne rfl) fun _ => ?_
  have htargets : Ensures (validateTargetsFrom next [next]) (.healthy s)
      (fun expected db' => db' = .healthy s ∧ expected = next + 1) fun _ _ => False := by
    refine failIf_bind (fun hne => hne rfl) fun _ => ?_
    refine ensures_bind_of_ok rfl (failIf_bind (fun hsome => ?_) fun _ => ?_)
    · exact absurd hsome (by simp [healthy, hfree])
    exact okOr_bind_of_some (checkedAddU64_of_lt hbound) (ensures_pure ⟨rfl, rfl⟩)
  refine htargets.bind (fun _ _ h => h) ?_
  rintro _ _ ⟨rfl, rfl⟩
  exact ensures_failIf (fun hne => hne rfl) fun _ => rfl

theorem createFileAtomic_succeeds (hkeyed : Keyed s) (hreplay : ReplaySound s)
    {next : InodeId} {parentInodeId : InodeId} {inode updatedParent : Inode}
    (hnext : s.nextInodeId = some next) (hbound : next + 1 < 2 ^ 64)
    (hid : inode.inodeId = next) (hrecord : record.inodeId = next)
    (hnew : s.createFileReplay.get record.operationId.key = none)
    (hroom : s.createFileReplayCount.getD 0 = maxCreateFileReplayRecords →
      ∃ record ∈ s.replayTable.recordSet, record.expiresAtMs ≤ t) :
    Ensures (createFileAtomic ⟨next, next + 1⟩ parentInodeId name inode updatedParent record
      t .initial) (.healthy s) (fun _ _ => True) fun _ _ => False := by
  have hfree : s.inode next = none := by
    by_contra hsome
    obtain ⟨inode, hinode⟩ := Option.ne_none_iff_exists'.1 hsome
    obtain ⟨next', hnext', hlt⟩ := hkeyed.inode_lt_next hinode
    cases hnext.symm.trans hnext'
    exact absurd hlt (lt_irrefl _)
  have hindex : s.createFileReplayInode.get record.inodeId = none := by
    by_contra hsome
    obtain ⟨operationId, hindex⟩ := Option.ne_none_iff_exists'.1 hsome
    obtain ⟨next', hnext', hlt⟩ := hreplay.index_lt_next hindex
    cases hnext.symm.trans hnext'
    rw [hrecord] at hlt
    exact absurd hlt (lt_irrefl _)
  unfold createFileAtomic
  rw [hid]
  refine Ensures.bind (validateInodeAllocationTargets_succeeds hnext
    (hkeyed.two_le_next hnext) hfree hbound) (fun _ _ h => h) ?_
  rintro _ _ rfl
  refine ensures_bind_of_ok rfl (ensures_bind_of_ok rfl ?_)
  refine (batchPutCreateFileReplay_succeeds hreplay hnew hindex hroom).bind (fun _ _ h => h) ?_
  rintro _ _ rfl
  exact trivial

theorem applyCreate_succeeds (hkeyed : Keyed s) (hreplay : ReplaySound s)
    (h : s.TakesFile t operationId name) (hdeadline : t ≤ deadline) (hexpires : t < expires) :
    Ensures (applyCreate operationId deadline expires path rootMountId 1 rootInodeId [name]
      .new sampleLayout t .initial) (.healthy s) (fun _ _ => True) fun _ _ => False := by
  obtain ⟨root, hroot, hdir⟩ := h.root
  obtain ⟨next, hnext, _⟩ := hkeyed.inode_lt_next hroot
  have hbound : next + 1 < 2 ^ 64 := by
    have hlt := h.next_lt
    rwa [Store.next, hnext] at hlt
  have hget : Ensures (getCreateFileReplay operationId) (.healthy s)
      (fun found db' => db' = .healthy s ∧ found = none) fun _ _ => False := by
    refine ensures_bind_of_ok rfl ?_
    simp only [healthy, h.unrecorded]
    exact ensures_pure ⟨rfl, rfl⟩
  refine hget.bind (fun _ _ h => h) ?_
  rintro _ _ ⟨rfl, rfl⟩
  refine failIf_bind (fun hlt => by omega) fun _ => failIf_bind (fun hle => by omega) fun _ => ?_
  refine ensures_bind_of_ok (rfl : _ = (Except.ok (), _)) ?_
  refine (resolveCreateParent_succeeds hkeyed h).bind (fun _ _ h => h) ?_
  rintro ⟨parentInodeId, name', parent⟩ _ ⟨rfl, hparent, hname'⟩
  simp only at hparent hname'
  subst hparent hname'
  refine ensures_bind_of_ok rfl (failIf_bind (fun hsome => ?_) fun _ => ?_)
  · exact absurd hsome (by simp [healthy, h.unused])
  refine (prepareInodeAllocation_succeeds hkeyed hroot hnext hbound).bind (fun _ _ h => h) ?_
  rintro _ _ ⟨rfl, rfl⟩
  refine Ensures.bind (createFileAtomic_succeeds hkeyed hreplay hnext hbound rfl rfl
    h.unrecorded h.room) (fun _ _ h => h) ?_
  exact fun _ _ _ => ensures_pure trivial

def createInRoot (t : ℕ) (operationId : CreateFileOperationId) (deadline expires : ℕ)
    (name : String) : Command :=
  .createFile t operationId deadline expires s!"/{name}" rootMountId 1 rootInodeId [name]
    .new sampleLayout

theorem Store.TakesFile.applied (hkeyed : Keyed s) (hreplay : ReplaySound s)
    (h : s.TakesFile t operationId name) (hdeadline : t ≤ deadline) (hexpires : t < expires) :
    ∃ c : FileCreation s, c.request = ⟨t, operationId, deadline, expires, rootInodeId, [name]⟩ ∧
      (s.applied (createInRoot t operationId deadline expires name)).2.store =
        s.applyBatch c.ops := by
  have hsucceeds : Ensures (applyCommand .initial
      (createInRoot t operationId deadline expires name)) (.healthy s) (fun _ _ => True)
        fun _ _ => False :=
    (applyCreate_succeeds hkeyed hreplay h hdeadline hexpires).bind (fun _ _ h => h)
      fun _ _ _ => ensures_pure trivial
  have hspec := (applyCommand_ensures (.healthy s) .initial
    (createInRoot t operationId deadline expires name)).and hsucceeds
  rcases hrun : applyCommand .initial (createInRoot t operationId deadline expires name)
    (.healthy s) with ⟨abort | success, db'⟩
  · exact (hspec.of_error hrun).2.elim
  obtain ⟨⟨ops, heffect, rfl⟩, _⟩ := hspec.of_ok hrun
  unfold Store.applied
  rw [applyCommitted_of_ok hrun, commit_store]
  change Effect s _ _ _ at heffect
  rcases heffect.replay_cases with hkeeps | ⟨c, hc, rfl⟩
  · exfalso
    simp only [createInRoot] at heffect
    cases heffect with
    | @fileMade _ _ _ _ _ _ _ _ _ _ _ _ _ _ record =>
      exact hkeeps (.putReplay record) (by simp [createFileOps, recordOps])
    | fileReplayed hrecord =>
      rw [h.unrecorded] at hrecord
      cases hrecord
  · exact ⟨c, (Option.some.inj hc).symm, rfl⟩

theorem ReplayRoom.keeps {u : Store} {count : ℕ} (h : ReplayRoom s t batch count) :
    (u.applyBatch batch).inodes = u.inodes ∧ (u.applyBatch batch).mounts = u.mounts := by
  cases h with
  | free | evict => exact ⟨rfl, rfl⟩

theorem FileCreation.inodes_ops (c : FileCreation s) :
    (s.applyBatch c.ops).inodes = (s.inodes.put c.record.inodeId
      (newLeasedFile c.record.inodeId (InodeAttrs.initializeAt c.attrs c.proposedAtMs)
        c.parent.mountId c.record.layout)).put c.parent.inodeId
        (touchParent c.parent c.proposedAtMs) := by
  rw [c.applyBatch_ops]
  exact c.room.keeps.1

theorem FileCreation.mounts_ops (c : FileCreation s) : (s.applyBatch c.ops).mounts = s.mounts := by
  rw [c.applyBatch_ops]
  exact c.room.keeps.2

theorem FileCreation.count_ops (c : FileCreation s) :
    (s.applyBatch c.ops).createFileReplayCount = some c.count := by
  rw [c.applyBatch_ops]
  rfl

theorem FileCreation.dentry_ops (c : FileCreation s) {p child : InodeId}
    (h : (s.applyBatch c.ops).dentry p name = some child) :
    s.dentry p name = some child ∨ name = c.name := by
  rcases Store.applyBatch_dentry h with hold | hput
  · exact .inl hold
  · exact .inr (putDentry_mem_createFileOps c.room hput).2.1

theorem FileCreation.in_root (c : FileCreation s)
    (h : c.request = ⟨t, operationId, deadline, expires, rootInodeId, [name]⟩) :
    c.parent.inodeId = rootInodeId ∧ c.name = name := by
  have htarget := c.target
  have hroot := congrArg CreateRequest.mountRootInodeId h
  have hcomponents := congrArg CreateRequest.relativeComponents h
  simp only [FileCreation.request] at hroot hcomponents
  rw [hroot, hcomponents] at htarget
  obtain ⟨root, hroot, hpath⟩ := htarget.walk
  have hname := htarget.name_eq
  generalize c.parent = parent at hpath
  cases hpath
  exact ⟨hroot.id_eq, (Option.some.inj hname).symm⟩

theorem FileCreation.rootOpen (c : FileCreation s) (hparent : c.parent.inodeId = rootInodeId)
    (h : s.RootOpen) : (s.applyBatch c.ops).RootOpen := by
  obtain ⟨root, hroot, hdir⟩ := h.root
  refine ⟨?_, touchParent c.parent c.proposedAtMs, ?_, ?_⟩
  · rw [c.mounts_ops]
    exact h.mount
  · rw [Store.inode, c.inodes_ops, hparent]
    simp
  · have heq := c.target.parent_eq.1
    rw [hparent, hroot] at heq
    cases heq
    exact hdir

end Create

end Beryl
