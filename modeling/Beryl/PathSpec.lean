import Beryl.NamespaceSpec

/-!
# Specifications of the commands that carry a path

`CreateFile` and `Delete` walk their path again when they are applied, from the
mount root down.  What the walk returns is an entry of the store the command is
applied to, whatever the leader saw.
-/

namespace Beryl

open Transaction List

variable {hyp : Prop} {db : Db} {raftState : AppMetadataRaftState}

/-! ## Path components -/

theorem checkRelativeComponents_spec (operation : String) (components : List String) :
    match checkRelativeComponents operation components with
    | .ok () => ∀ name ∈ components, ValidName name
    | .error error => error.Rejectable := by
  induction components with
  | nil => simp [checkRelativeComponents]
  | cons component rest ih =>
    unfold checkRelativeComponents
    split
    next hbad =>
      split at hbad
      next => cases hbad
      next hchars =>
        split at hbad
        next => cases hbad
        next hsize =>
          rw [hbad] at ih
          simp only [not_or] at hchars
          intro name hname
          rcases mem_cons.1 hname with rfl | hrest
          · exact ⟨hchars.1, not_lt.1 hsize, hchars.2.1, hchars.2.2⟩
          · exact ih name hrest
    next error herror =>
      split at herror
      next =>
        cases herror
        exact ⟨_, rfl⟩
      next =>
        split at herror
        next =>
          cases herror
          exact ⟨_, rfl⟩
        next =>
          rw [herror] at ih
          exact ih

theorem validateRelativeComponents_spec (operation : String)
    (components : List String) :
    match validateRelativeComponents operation components with
    | .ok () => components ≠ [] ∧ ∀ name ∈ components, ValidName name
    | .error error => error.Rejectable := by
  unfold validateRelativeComponents
  by_cases hnil : components = []
  · rw [if_pos hnil]
    exact ⟨_, rfl⟩
  rw [if_neg hnil]
  by_cases hlength : components.length > maxPathComponents
  · rw [if_pos hlength]
    exact ⟨_, rfl⟩
  rw [if_neg hlength]
  have hspec := checkRelativeComponents_spec operation components
  cases hcheck : checkRelativeComponents operation components with
  | error =>
    rw [hcheck] at hspec
    exact hspec
  | ok =>
    rw [hcheck] at hspec
    exact ⟨hnil, hspec⟩

variable {components : List String} {s : Store} {parent last : Inode} {mountRootInodeId : InodeId}
  {mountId : MountId} {name : String} {layout : FileLayout} {proposedAtMs : ℕ}

theorem validateRelativeComponents_bind {α : Type} {operation : String} {f : Unit → StorageM α}
    {ok : α → Db → Prop}
    (hok : components ≠ [] → (∀ name ∈ components, ValidName name) →
      Ensures (f ()) db ok (Refusal hyp db)) :
    Ensures (ofResult (validateRelativeComponents operation components) >>= f) db ok
      (Refusal hyp db) := by
  have hspec := validateRelativeComponents_spec operation components
  refine ofResult_bind (fun error herror => ?_) fun _ hvalid => ?_
  · rw [herror] at hspec
    exact .rejected hspec
  · rw [hvalid] at hspec
    exact hok hspec.1 hspec.2

/-! ## Walks -/

theorem DirectoryPath.inode_eq (hpath : DirectoryPath s parent components last)
    (hparent : s.inode parent.inodeId = some parent) : s.inode last.inodeId = some last := by
  induction hpath with
  | nil => exact hparent
  | cons _ hinode hid _ _ ih =>
    refine ih ?_
    rw [hid]
    exact hinode

theorem DirectoryPath.is_dir (hpath : DirectoryPath s parent components last)
    (hparent : parent.kind = .dir) : last.kind = .dir := by
  induction hpath with
  | nil => exact hparent
  | cons _ _ _ hdir _ ih => exact ih hdir

theorem MountRootAt.walk_inode {root : Inode} (hroot : MountRootAt s mountRootInodeId root)
    (hpath : DirectoryPath s root components last) : s.inode last.inodeId = some last := by
  refine hpath.inode_eq ?_
  rw [hroot.id_eq]
  exact hroot.inode_eq

theorem CreateParent.parent_eq (h : CreateParent s mountRootInodeId components parent name) :
    s.inode parent.inodeId = some parent ∧ parent.kind = .dir := by
  obtain ⟨root, hroot, hpath⟩ := h.walk
  exact ⟨hroot.walk_inode hpath, hpath.is_dir hroot.is_dir⟩

theorem Store.layout_eq_some {i : InodeId} : s.layout i = some layout ↔
      ∃ inode file, s.inode i = some inode ∧ inode.kind = .file file ∧ file.layout = layout := by
  unfold Store.layout
  cases s.inode i with
  | none => simp
  | some inode =>
    cases hkind : inode.kind with
    | dir => simp [hkind]
    | file => simp [hkind]

def CreateFileReplayRecord.created (record : CreateFileReplayRecord) : ApplySuccess :=
  .fileCreated record.inodeId record.layout record.leaseEpoch record.expiresAtMs
    record.generation

theorem Store.mem_mounts {entry : MountEntry} :
    entry ∈ s.mounts.entries.map Prod.snd ↔ ∃ m, s.mounts.get m = some entry := by
  constructor
  · intro h
    obtain ⟨⟨m, _⟩, hmem, rfl⟩ := mem_map.1 h
    exact ⟨m, s.mounts.mem_entries_iff.1 hmem⟩
  · rintro ⟨m, hget⟩
    exact mem_map.2 ⟨(m, entry), s.mounts.mem_entries_iff.2 hget, rfl⟩

theorem DeleteTarget.parent_eq {child : Inode}
    (h : DeleteTarget s mountRootInodeId components parent name child) :
    s.inode parent.inodeId = some parent ∧ parent.kind = .dir := by
  obtain ⟨root, hroot, hpath⟩ := h.walk
  exact ⟨hroot.walk_inode hpath, hpath.is_dir hroot.is_dir⟩

variable (hfit : hyp → db.Fit)
include hfit

theorem walkCreateParent_ensures (hmount : hyp → mountId = rootMountId)
    (components : List String) : ∀ parent, Ensures (walkCreateParent mountId parent components) db
      (fun last db' => db' = db ∧ DirectoryPath db.store parent components last)
      (Refusal hyp db) := by
  induction components with
  | nil =>
    intro parent
    exact ensures_pure ⟨rfl, .nil⟩
  | cons component rest ih =>
    intro parent
    refine query_bind hfit (okOrElse_bind ⟨_, rfl⟩ fun childInodeId hdentry => ?_)
    refine query_bind hfit (okOrElse_bind ⟨_, rfl⟩ fun child hchild => ?_)
    refine failIf_bind (fun hbad => .excluded fun hhyp => ?_) fun hid => ?_
    · rcases hbad with hid | hid
      · exact hid ((hfit hhyp).linked.inodeId_eq hchild)
      · exact hid (((hfit hhyp).linked.mountId_eq hchild).trans (hmount hhyp).symm)
    rw [not_or, not_not] at hid
    refine rejectIf_bind ⟨_, rfl⟩ fun hdir => ?_
    have hdir := fileType_eq_dir.1 (not_not.1 hdir)
    refine (ih child).mono ?_ fun _ _ h => h
    rintro last db' ⟨rfl, hpath⟩
    exact ⟨rfl, .cons hdentry hchild hid.1 hdir hpath⟩

variable {expectedMountEpoch : ℕ}

theorem resolveCreateParent_ensures :
    Ensures (resolveCreateParent mountId expectedMountEpoch mountRootInodeId components)
      db (fun target db' => db' = db ∧
        CreateParent db.store mountRootInodeId components target.2.2 target.2.1 ∧
        target.1 = target.2.2.inodeId ∧ (hyp → mountId = rootMountId)) (Refusal hyp db) := by
  unfold resolveCreateParent
  refine validateRelativeComponents_bind fun hne hvalid => ?_
  refine query_bind hfit (okOrElse_bind ⟨_, rfl⟩ fun mount hmount => ?_)
  refine rejectIf_bind ⟨_, rfl⟩ fun hprecondition => ?_
  simp only [not_or, not_not] at hprecondition
  have hmountId : hyp → mountId = rootMountId := fun hhyp =>
    ((hfit hhyp).linked.mount_root hmount).1
  refine query_bind hfit (okOrElse_bind ⟨_, rfl⟩ fun root hroot => ?_)
  refine failIf_bind (fun hbad => .excluded fun hhyp => ?_) fun hgood => ?_
  · obtain ⟨_, _, inode, hinode, hdir⟩ := (hfit hhyp).linked.mount_root hmount
    rw [hprecondition.2, hroot] at hinode
    cases hinode
    rcases hbad with hid | hid | hid
    · exact hid ((hfit hhyp).linked.inodeId_eq hroot)
    · exact hid (((hfit hhyp).linked.mountId_eq hroot).trans (hmountId hhyp).symm)
    · exact hid (fileType_eq_dir.2 hdir)
  simp only [not_or, not_not] at hgood
  have hat : MountRootAt db.store mountRootInodeId root :=
    ⟨⟨mountId, mount, hmount, hprecondition.2⟩, hroot, hgood.1, fileType_eq_dir.1 hgood.2.2⟩
  cases hlast : components.getLast? with
  | none => exact absurd (getLast?_eq_none_iff.1 hlast) hne
  | some name =>
    refine reads_bind (walkCreateParent_ensures hfit hmountId
      components.dropLast root) fun parent hpath => ?_
    exact ensures_pure ⟨rfl, ⟨⟨root, hat, hpath⟩, hlast, hvalid name (mem_of_getLast? hlast)⟩, rfl,
      hmountId⟩

/-! ## CreateFile -/

variable {record : CreateFileReplayRecord}

theorem validateCreateFileReplay_ensures {key : ReplayKey}
    (hfiles : hyp → FilesSound db.store) (hreplay : hyp → ReplaySound db.store)
    (hrecord : db.store.createFileReplay.get key = some record) :
    Ensures (validateCreateFileReplay record proposedAtMs) db
      (fun _ db' => db' = db ∧ proposedAtMs < record.expiresAtMs) (Refusal hyp db) := by
  unfold validateCreateFileReplay
  refine rejectIf_bind ⟨_, rfl⟩ fun hlive => ?_
  refine reads_bind (resolveCreateParent_ensures hfit) ?_
  rintro ⟨parentInodeId, name, parent⟩ ⟨_, _, hmountId⟩
  refine rejectIf_bind ⟨_, rfl⟩ fun _ => ?_
  refine query_bind hfit (rejectIf_bind ⟨_, rfl⟩ fun _ => ?_)
  refine query_bind hfit (okOrElse_bind ⟨_, rfl⟩ fun inode hinode => ?_)
  have hlayout : hyp → db.store.layout record.inodeId = some record.layout := by
    intro hhyp
    obtain ⟨file, hkind, hlayout⟩ := (hreplay hhyp).record_layout hrecord hinode
    exact Store.layout_eq_some.2 ⟨inode, file, hinode, hkind, hlayout⟩
  refine failIf_bind (fun hbad => .excluded fun hhyp => ?_) fun hgood => ?_
  · obtain ⟨file, hkind, _⟩ := (hreplay hhyp).record_layout hrecord hinode
    rcases hbad with hid | hid | hid
    · exact hid ((hfit hhyp).linked.inodeId_eq hinode)
    · exact hid (((hfit hhyp).linked.mountId_eq hinode).trans (hmountId hhyp).symm)
    · exact hid (fileType_eq_file.2 ⟨file, hkind⟩)
  cases hkind : inode.kind with
  | dir =>
    simp [Inode.fileType, hkind] at hgood
  | file =>
    refine rejectIf_bind ⟨_, rfl⟩ fun _ => ?_
    refine rejectIf_bind ⟨_, rfl⟩ fun _ => ?_
    unfold getLayout
    refine ensures_bind (reads_bind (getLayoutOptional_ensures hfit hfiles) ?_)
    rintro _ rfl
    refine ensures_okOr (fun _ => .rejected ⟨_, rfl⟩) fun layout hget => ?_
    refine ensures_failIf (fun hne => .excluded fun hhyp => hne ?_) fun _ => ⟨rfl, not_le.1 hlive⟩
    rw [hlayout hhyp] at hget
    cases hget
    rfl

theorem createFileAtomic_ensures {allocation : InodeAllocation} {parentInodeId : InodeId}
    {inode updatedParent : Inode} (hreplay : hyp → ReplaySound db.store)
    (halloc : db.store.Allocates allocation.inodeId)
    (hnext : allocation.nextInodeId = allocation.inodeId + 1)
    (hid : inode.inodeId = allocation.inodeId) (hrecord : record.inodeId = allocation.inodeId)
    (hnew : db.store.createFileReplay.get record.operationId.key = none)
    (hroom : hyp → db.store.AllocatorRoom 1) :
    Ensures (createFileAtomic allocation parentInodeId name inode updatedParent record
        proposedAtMs raftState) db
      (fun _ db' => ∃ eviction count, ReplayRoom db.store proposedAtMs eviction count ∧
        db' = db.commit (createEntryOps parentInodeId name inode updatedParent ++
          [.putNextInodeId (allocation.inodeId + 1)] ++ eviction ++
          recordOps record count) raftState) (Refusal hyp db) := by
  unfold createFileAtomic
  rw [hid]
  refine reads_bind (validateInodeAllocationTargets_ensures hfit halloc one_pos
    hnext hroom) fun _ _ => ?_
  refine createEntryBatch_bind hfit (batchPutInodeAllocation_bind hfit ?_)
  refine reads_bind (batchPutCreateFileReplay_ensures (fun h => (hfit h).healthy)
    hreplay hnew ?_) ?_
  · rw [hrecord]
    exact halloc
  rintro batch ⟨eviction, count, rfl, hreplayRoom⟩
  refine commitAuthorityBatch_ensures hfit ⟨eviction, count, hreplayRoom, ?_⟩
  rw [hnext, nil_append]

variable {operationId : CreateFileOperationId} {deadline expires epoch : ℕ} {attrs : InodeAttrs}
    {path : String}

theorem createNewFile_ensures (hreplay : hyp → ReplaySound db.store)
    (hroom : hyp → db.store.AllocatorRoom 1)
    (hnew : db.store.createFileReplay.get operationId.key = none) :
    Ensures (createNewFile operationId deadline expires path mountId epoch
        mountRootInodeId components attrs layout proposedAtMs raftState) db
      (fun record => Commits db (.createFile proposedAtMs operationId deadline expires
        path mountId epoch mountRootInodeId components attrs layout) raftState record.created)
      (Refusal hyp db) := by
  unfold createNewFile
  refine rejectIf_bind ⟨_, rfl⟩ fun hdeadline => ?_
  refine rejectIf_bind ⟨_, rfl⟩ fun hexpires => ?_
  refine ofResult_bind (fun error herror => ?_) fun _ hlayout => ?_
  · cases hvalid : layout.validate with
    | ok =>
      rw [hvalid] at herror
      cases herror
    | error =>
      rw [hvalid] at herror
      cases herror
      exact .rejected ⟨_, rfl⟩
  have hlayout : layout.validate = .ok () := by
    cases hvalid : layout.validate with
    | ok => rfl
    | error =>
      rw [hvalid] at hlayout
      cases hlayout
  refine reads_bind (resolveCreateParent_ensures hfit) ?_
  rintro ⟨parentInodeId, name, parent⟩ ⟨hparent, hid, _⟩
  simp only at hparent hid
  subst hid
  refine query_bind hfit (rejectIf_bind ⟨_, rfl⟩ fun hfree => ?_)
  have hfree := Option.not_isSome_iff_eq_none.1 hfree
  refine reads_bind (prepareInodeAllocation_ensures hfit ⟨_, _, hparent.parent_eq.1⟩ hroom) ?_
  rintro allocation ⟨halloc, hnext⟩
  refine (createFileAtomic_ensures hfit hreplay halloc hnext rfl rfl hnew
    hroom).bind (fun _ _ h => h) ?_
  rintro _ _ ⟨eviction, count, hreplayRoom, rfl⟩
  refine ensures_pure ⟨_, .fileMade hnew (not_lt.1 hdeadline) (not_le.1 hexpires) hlayout
    hparent hfree halloc hreplayRoom rfl, rfl⟩

theorem applyCreate_ensures (hfiles : hyp → FilesSound db.store)
    (hreplay : hyp → ReplaySound db.store) (hroom : hyp → db.store.AllocatorRoom 1) :
    Ensures (applyCreate operationId deadline expires path mountId epoch
        mountRootInodeId components attrs layout proposedAtMs raftState) db
      (fun record => Commits db (.createFile proposedAtMs operationId deadline expires
        path mountId epoch mountRootInodeId components attrs layout) raftState record.created)
      (Refusal hyp db) := by
  unfold applyCreate
  refine reads_bind (getCreateFileReplay_ensures hfit hreplay) ?_
  rintro _ rfl
  cases hrecord : db.store.createFileReplay.get operationId.key with
  | none => exact createNewFile_ensures hfit hreplay hroom hrecord
  | some =>
    refine rejectIf_bind ⟨_, rfl⟩ fun hsame => ?_
    refine reads_bind (validateCreateFileReplay_ensures hfit hfiles
      hreplay hrecord) fun _ hlive => ?_
    exact commit_bind hfit (ensures_pure ⟨_, .fileReplayed hrecord (not_not.1 hsame) hlive, rfl⟩)

/-! ## Delete -/

theorem walkDeleteTarget_ensures (components : List String) (hne : components ≠ []) :
    ∀ parent, Ensures (walkDeleteTarget (db.store.mounts.entries.map Prod.snd) mountId
        parent components) db (fun target db' => db' = db ∧ ∃ last,
        DirectoryPath db.store parent components.dropLast last ∧
        target.1 = last.inodeId ∧ components.getLast? = some target.2.1 ∧
        db.store.dentry last.inodeId target.2.1 = some target.2.2.inodeId ∧
        db.store.inode target.2.2.inodeId = some target.2.2 ∧
        ¬db.store.IsMountRoot target.2.2.inodeId) (Refusal hyp db) := by
  induction components with
  | nil => exact absurd rfl hne
  | cons component rest ih =>
    intro parent
    refine query_bind hfit (okOrElse_bind ⟨_, rfl⟩ fun childInodeId hdentry => ?_)
    refine query_bind hfit (okOrElse_bind ⟨_, rfl⟩ fun child hchild => ?_)
    refine failIf_bind (fun hid => .excluded fun hhyp => hid ?_) fun hid => ?_
    · exact (hfit hhyp).linked.inodeId_eq hchild
    have hid := not_not.1 hid
    refine rejectIf_bind ⟨_, rfl⟩ fun _ => ?_
    by_cases hrest : rest = []
    · rw [if_pos hrest]
      refine rejectIf_bind ⟨_, rfl⟩ fun hroot => ?_
      refine ensures_pure ⟨rfl, parent, ?_, rfl, ?_, ?_, ?_, ?_⟩
      · rw [hrest]
        exact .nil
      · rw [hrest]
        rfl
      · rw [hdentry, hid]
      · rw [hid]
        exact hchild
      · rintro ⟨m, entry, hmount, heq⟩
        refine hroot (any_eq_true.2 ⟨entry, Store.mem_mounts.2 ⟨m, hmount⟩, ?_⟩)
        rw [heq]
        exact decide_eq_true hid
    · rw [if_neg hrest]
      refine rejectIf_bind ⟨_, rfl⟩ fun hdir => ?_
      have hdir := fileType_eq_dir.1 (not_not.1 hdir)
      refine (ih hrest child).mono ?_ fun _ _ h => h
      rintro target db' ⟨rfl, last, hpath, hparent, hlast, htarget⟩
      refine ⟨rfl, last, ?_, hparent, ?_, htarget⟩
      · rw [dropLast_cons_of_ne_nil hrest]
        exact .cons hdentry hchild hid hdir hpath
      · rw [getLast?_cons_of_ne_nil hrest]
        exact hlast

theorem resolveDeleteTarget_ensures :
    Ensures (resolveDeleteTarget mountId expectedMountEpoch mountRootInodeId components)
      db (fun target db' => db' = db ∧ ∃ parent, target.1 = parent.inodeId ∧
        DeleteTarget db.store mountRootInodeId components parent target.2.1 target.2.2)
      (Refusal hyp db) := by
  unfold resolveDeleteTarget
  refine validateRelativeComponents_bind fun hne _ => ?_
  refine query_bind hfit (okOrElse_bind ⟨_, rfl⟩ fun mount hmount => ?_)
  obtain ⟨m, hmount⟩ := Store.mem_mounts.1 (mem_of_find?_eq_some hmount)
  refine rejectIf_bind ⟨_, rfl⟩ fun hprecondition => ?_
  simp only [not_or, not_not] at hprecondition
  refine okOrElse_bind ⟨_, rfl⟩ fun _ _ => ?_
  refine okOrElse_bind ⟨_, rfl⟩ fun _ _ => ?_
  refine rejectIf_bind ⟨_, rfl⟩ fun _ => ?_
  refine rejectIf_bind ⟨_, rfl⟩ fun _ => ?_
  refine query_bind hfit (okOrElse_bind ⟨_, rfl⟩ fun root hroot => ?_)
  refine failIf_bind (fun hid => .excluded fun hhyp => hid ?_) fun hid => ?_
  · exact (hfit hhyp).linked.inodeId_eq hroot
  refine rejectIf_bind ⟨_, rfl⟩ fun hdir => ?_
  refine rejectIf_bind ⟨_, rfl⟩ fun _ => ?_
  have hat : MountRootAt db.store mountRootInodeId root :=
    ⟨⟨m, mount, hmount, hprecondition.2⟩, hroot, not_not.1 hid, fileType_eq_dir.1 (not_not.1 hdir)⟩
  refine (walkDeleteTarget_ensures hfit components hne root).mono ?_ fun _ _ h => h
  rintro target db' ⟨rfl, parent, hpath, hparent, hlast, hdentry, hchild, hnotRoot⟩
  exact ⟨rfl, parent, hparent, ⟨root, hat, hpath⟩, hlast, hdentry, hchild, hnotRoot⟩

section Removal

variable {mountRootInodeId : InodeId} {components : List String}
  {parent child : Inode} {name : String} {proposedAtMs : ℕ} {ok : Unit → Db → Prop}
  (htarget : DeleteTarget db.store mountRootInodeId components parent name child)

theorem unlinkInodeAtomic_ensures {parentInodeId inodeId : InodeId} {updatedParent : Inode}
    (hok : ok () (db.commit [.deleteDentry parentInodeId name, .deleteInode inodeId,
      .putInode updatedParent] raftState)) :
    Ensures (unlinkInodeAtomic parentInodeId name inodeId updatedParent raftState) db ok
      (Refusal hyp db) :=
  batchPutInode_bind hfit (commitAuthorityBatch_ensures hfit hok)

include htarget

theorem applyUnlink_ensures (hfiles : hyp → FilesSound db.store)
    (hok : (∃ file, child.kind = .file file) → ok () (db.commit [.deleteDentry parent.inodeId
      name, .deleteInode child.inodeId, .putInode (touchParent parent proposedAtMs)] raftState)) :
    Ensures (applyUnlink parent.inodeId name proposedAtMs raftState) db ok (Refusal hyp db) := by
  unfold applyUnlink
  refine found_bind hfit htarget.dentry_eq (found_bind hfit htarget.child_eq ?_)
  refine rejectIf_bind ⟨_, rfl⟩ fun hdir => ?_
  have hfile : ∃ file, child.kind = .file file := by
    cases hkind : child.kind with
    | dir => exact absurd (fileType_eq_dir.2 hkind) hdir
    | file file => exact ⟨file, rfl⟩
  refine found_bind hfit htarget.parent_eq.1 ?_
  refine failIf_bind (fun hne => absurd rfl hne) fun _ => ?_
  refine reads_bind (getLayoutOptional_ensures hfit hfiles) ?_
  rintro _ rfl
  refine failIf_bind (fun hnone => ?_) fun _ => unlinkInodeAtomic_ensures hfit (hok hfile)
  obtain ⟨file, hkind⟩ := hfile
  rw [Store.layout_eq_some.2 ⟨child, file, htarget.child_eq, hkind, rfl⟩] at hnone
  cases hnone

theorem applyDeleteEmptyDir_ensures
    (hok : child.kind = .dir → (∀ name, db.store.dentry child.inodeId name = none) → ok ()
      (db.commit [.deleteDentry parent.inodeId name, .deleteInode child.inodeId, .putInode
      (touchParent parent proposedAtMs)] raftState)) :
    Ensures (applyDeleteEmptyDir parent.inodeId name proposedAtMs raftState) db ok
      (Refusal hyp db) := by
  unfold applyDeleteEmptyDir
  refine found_bind hfit htarget.dentry_eq (found_bind hfit htarget.child_eq ?_)
  refine rejectIf_bind ⟨_, rfl⟩ fun hdir => ?_
  have hdir := fileType_eq_dir.1 (not_not.1 hdir)
  refine reads_bind (isDirectoryEmpty_ensures hfit) fun empty hempty => ?_
  refine rejectIf_bind ⟨_, rfl⟩ fun hne => ?_
  rw [Bool.not_eq_false] at hne
  refine found_bind hfit htarget.parent_eq.1 ?_
  exact unlinkInodeAtomic_ensures hfit (hok hdir (hempty.1 hne))

theorem applyDetachDirectory_ensures (hfiles : hyp → FilesSound db.store)
    (hok : child.kind = .dir → db.store.marker child.inodeId = none → ok () (db.commit
      [.deleteDentry parent.inodeId name, .putInode (touchParent parent proposedAtMs),
      .putDetachedRoot child.inodeId ⟨child.mountId, proposedAtMs⟩] raftState)) :
    Ensures (applyDetachDirectory parent.inodeId name child.inodeId proposedAtMs
        raftState) db ok (Refusal hyp db) := by
  unfold applyDetachDirectory detachDirectoryAtomic
  refine found_bind hfit htarget.dentry_eq ?_
  refine failIf_bind (fun hne => absurd rfl hne) fun _ => ?_
  refine found_bind hfit htarget.child_eq ?_
  refine rejectIf_bind ⟨_, rfl⟩ fun hdir => ?_
  have hdir := fileType_eq_dir.1 (not_not.1 hdir)
  refine failIf_bind (fun hne => absurd rfl hne) fun _ => ?_
  refine reads_bind (getLayoutOptional_ensures hfit hfiles) ?_
  rintro _ rfl
  refine failIf_bind (fun hsome => ?_) fun _ => ?_
  · obtain ⟨layout, hlayout⟩ := Option.ne_none_iff_exists'.1 hsome
    obtain ⟨inode, file, hinode, hkind, _⟩ := Store.layout_eq_some.1 hlayout
    rw [htarget.child_eq] at hinode
    cases hinode
    rw [hdir] at hkind
    cases hkind
  refine reads_bind (getDetachedRoot_ensures hfit) ?_
  rintro _ rfl
  refine failIf_bind (fun hsome => .excluded fun hhyp => hsome ?_) fun hmarker => ?_
  · exact (hfit hhyp).linked.child_unmarked htarget.dentry_eq
  refine found_bind hfit htarget.parent_eq.1 ?_
  refine rejectIf_bind ⟨_, rfl⟩ fun _ => ?_
  refine rejectIf_bind ⟨_, rfl⟩ fun _ => ?_
  refine batchPutInode_bind hfit (encode_bind hfit ?_)
  exact commitAuthorityBatch_ensures hfit (hok hdir (not_not.1 hmarker))

end Removal

theorem applyDelete_ensures {epoch proposedAtMs : ℕ} {mountRootInodeId expectedInodeId : InodeId}
    {lease : Option LeaseEpoch} {recursive : Bool} (hfiles : hyp → FilesSound db.store) :
    Ensures (applyDelete mountId epoch mountRootInodeId components expectedInodeId
        lease recursive proposedAtMs raftState) db
      (fun _ => Commits db (.delete proposedAtMs mountId epoch mountRootInodeId
        components expectedInodeId lease recursive) raftState .deleteApplied) (Refusal hyp db) := by
  unfold applyDelete
  refine reads_bind (resolveDeleteTarget_ensures hfit) ?_
  rintro ⟨parentInodeId, name, child⟩ ⟨parent, hparent, htarget⟩
  simp only at hparent htarget
  subst hparent
  refine rejectIf_bind ⟨_, rfl⟩ fun hexpected => ?_
  have hexpected := not_not.1 hexpected
  subst hexpected
  by_cases hdir : child.fileType = .dir
  · rw [if_pos hdir]
    refine rejectIf_bind ⟨_, rfl⟩ fun hlease => ?_
    have hlease := Option.not_isSome_iff_eq_none.1 hlease
    subst hlease
    cases recursive with
    | true =>
      exact applyDetachDirectory_ensures hfit htarget hfiles
        fun hkind hmarker => ⟨_, .directoryDetached htarget hkind hmarker, rfl⟩
    | false =>
      exact applyDeleteEmptyDir_ensures hfit htarget
        fun hkind hempty => ⟨_, .directoryRemoved htarget hkind hempty, rfl⟩
  · rw [if_neg hdir]
    refine rejectIf_bind ⟨_, rfl⟩ fun _ => ?_
    refine applyUnlink_ensures hfit htarget hfiles ?_
    rintro ⟨file, hkind⟩
    exact ⟨_, .unlinked htarget hkind, rfl⟩

end Beryl
