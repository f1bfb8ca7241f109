import Beryl.PathSpec

/-!
# Specification of rename

A rename carries the inode ids of its parents and does not look their path up
again.  Its entry checks keep it honest about the two names, but a destination
parent that has gone since the leader read it is met only when its inode is
loaded, and there it is an internal error.
-/

namespace Beryl

open Transaction

variable {hyp : Prop} {db : Db} {raftState : AppMetadataRaftState}

/-- The command is a rename that passes its entry checks although its
destination parent is gone. -/
def Command.RenamesIntoRemovedParent (s : Store) : Command → Prop
  | .rename _ p name x q name' expectedDst _ _ =>
    s.dentry p name = some x ∧ expectedDst = none ∧ s.dentry q name' = none ∧
      s.inode q = none
  | _ => False

instance (s : Store) (command : Command) :
    Decidable (command.RenamesIntoRemovedParent s) := by
  unfold Command.RenamesIntoRemovedParent
  split <;> infer_instance

section

variable (hfit : hyp → db.Fit)
include hfit

theorem prepareRenameOverwriteTargetCleanup_ensures {dstInodeId : InodeId} {dst : Inode}
    (hfiles : hyp → FilesSound db.store) (hdst : db.store.inode dstInodeId = some dst) :
    Ensures (prepareRenameOverwriteTargetCleanup dstInodeId dst) db
      (fun overwritten db' => db' = db ∧ overwritten = dstInodeId ∧ dst.inodeId = dstInodeId ∧
        (dst.kind = .dir → ∀ name, db.store.dentry dstInodeId name = none)) (Refusal hyp db) := by
  unfold prepareRenameOverwriteTargetCleanup
  have hid : hyp → dst.inodeId = dstInodeId := fun hhyp =>
    (hfit hhyp).linked.inodeId_eq hdst
  cases hkind : dst.kind with
  | file file =>
    refine failIf_bind (fun hne => .excluded fun hhyp => hne (hid hhyp)) fun hid => ?_
    refine reads_bind (getLayoutOptional_ensures hfit hfiles) ?_
    rintro _ rfl
    refine failIf_bind (fun hnone => ?_)
      fun _ => ensures_pure ⟨rfl, rfl, not_not.1 hid, fun h => by cases h⟩
    rw [Store.layout_eq_some.2 ⟨dst, file, hdst, hkind, rfl⟩] at hnone
    cases hnone
  | dir =>
    refine reads_bind (isDirectoryEmpty_ensures hfit) fun empty hempty => ?_
    refine rejectIf_bind ⟨_, rfl⟩ fun hne => ?_
    rw [Bool.not_eq_false] at hne
    refine failIf_bind (fun hne => .excluded fun hhyp => hne (hid hhyp)) fun hid => ?_
    refine reads_bind (getLayoutOptional_ensures hfit hfiles) ?_
    rintro _ rfl
    refine failIf_bind (fun hsome => ?_)
      fun _ => ensures_pure ⟨rfl, rfl, not_not.1 hid, fun _ => hempty.1 hne⟩
    obtain ⟨layout, hlayout⟩ := Option.ne_none_iff_exists'.1 hsome
    obtain ⟨inode, file, hinode, hfile, _⟩ := Store.layout_eq_some.1 hlayout
    rw [hdst] at hinode
    cases hinode
    rw [hkind] at hfile
    cases hfile

theorem prepareRenameOverwrite_ensures {src : Inode} {p : InodeId} {name : String}
    {dstInodeId : InodeId} {dstName : String} {lease : Option LeaseEpoch}
    (hfiles : hyp → FilesSound db.store) (hdentry : db.store.dentry p name = some dstInodeId) :
    Ensures (prepareRenameOverwrite src dstInodeId dstName lease) db
      (fun overwritten db' => db' = db ∧ overwritten = dstInodeId ∧
        Overwritable db.store src dstInodeId) (Refusal hyp db) := by
  unfold prepareRenameOverwrite
  refine query_bind hfit (okOr_bind (fun hnone => ?_) fun dst hdst => ?_)
  · refine .excluded fun hhyp => ?_
    obtain ⟨inode, hinode⟩ := (hfit hhyp).linked.child_exists hdentry
    rw [hnone] at hinode
    cases hinode
  refine rejectIf_bind ⟨_, rfl⟩ fun _ => ?_
  have hcleanup := prepareRenameOverwriteTargetCleanup_ensures hfit hfiles hdst
  by_cases hsrc : src.fileType = .dir
  · rw [if_pos hsrc]
    refine rejectIf_bind ⟨_, rfl⟩ fun htype => ?_
    have htype := not_not.1 htype
    refine reads_bind (isDirectoryEmpty_ensures hfit) fun _ _ => ?_
    refine rejectIf_bind ⟨_, rfl⟩ fun _ => ?_
    refine hcleanup.mono ?_ fun _ _ h => h
    rintro _ _ ⟨rfl, rfl, hid, hempty⟩
    exact ⟨rfl, rfl, dst, hdst, hid, htype.trans hsrc.symm, hempty⟩
  · rw [if_neg hsrc]
    refine rejectIf_bind ⟨_, rfl⟩ fun htype => ?_
    refine hcleanup.mono ?_ fun _ _ h => h
    rintro _ _ ⟨rfl, rfl, hid, hempty⟩
    refine ⟨rfl, rfl, dst, hdst, hid, ?_, hempty⟩
    cases hsrcType : src.fileType with
    | dir => exact absurd hsrcType hsrc
    | file =>
      cases hdstType : dst.fileType with
      | dir => exact absurd hdstType htype
      | file => rfl

theorem prepareRenameParents_ensures {p q : InodeId} {proposedAtMs : ℕ}
    (hsrc : hyp → ∃ inode, db.store.inode p = some inode)
    (hdst : hyp → ∃ inode, db.store.inode q = some inode) :
    Ensures (prepareRenameParents p q proposedAtMs) db (fun parents db' => db' = db ∧
        RenameParents db.store proposedAtMs p q (parents.1.toList ++ parents.2.toList))
      (Refusal hyp db) := by
  have hmissing : ∀ {i : InodeId}, (hyp → ∃ inode, db.store.inode i = some inode) →
      db.store.inode i = none → ∀ error, Refusal hyp db (.failed error) db := by
    intro i hexists hnone error
    refine .excluded fun hhyp => ?_
    obtain ⟨inode, hinode⟩ := hexists hhyp
    rw [hnone] at hinode
    cases hinode
  unfold prepareRenameParents
  by_cases hne : p ≠ q
  · rw [if_pos hne]
    refine query_bind hfit (okOr_bind (fun hnone => hmissing hsrc hnone _)
      fun srcParent hsrcParent => ?_)
    refine query_bind hfit (okOr_bind (fun hnone => hmissing hdst hnone _)
      fun dstParent hdstParent => ?_)
    exact ensures_pure ⟨rfl, .different hne hsrcParent hdstParent⟩
  · rw [if_neg hne]
    refine query_bind hfit (okOr_bind (fun hnone => hmissing hsrc hnone _) fun parent hparent => ?_)
    exact ensures_pure ⟨rfl, .same (not_not.1 hne) hparent⟩

theorem renameAtomic_ensures {update : RenameAtomicUpdate} {ok : Unit → Db → Prop}
    (hok : ok () (db.commit (renameOps update.srcParentInodeId update.srcName
      update.dstParentInodeId update.dstName update.srcInodeId update.overwrittenTarget
      (update.updatedSrcParent.toList ++ update.updatedDstParent.toList)) raftState)) :
    Ensures (renameAtomic update raftState) db ok (Refusal hyp db) := by
  unfold renameAtomic
  refine batchPutInodeOptional_bind hfit (batchPutInodeOptional_bind hfit
    (commitAuthorityBatch_ensures hfit ?_))
  cases hover : update.overwrittenTarget with
  | none | some => simpa [renameOps, RenameAtomicUpdate.moveOps, hover] using hok

theorem applyRename_ensures {p q x : InodeId} {name name' : String}
    {expectedDst : Option InodeId} {lease : Option LeaseEpoch} {flags : UInt32} {proposedAtMs : ℕ}
    (hfiles : hyp → FilesSound db.store)
    (hparent : hyp → ¬(Command.rename proposedAtMs p name x q name' expectedDst lease
      flags).RenamesIntoRemovedParent db.store) :
    Ensures (applyRename p name x q name' expectedDst lease flags proposedAtMs raftState) db
      (fun _ => Commits db (.rename proposedAtMs p name x q name' expectedDst lease flags)
        raftState .renameApplied) (Refusal hyp db) := by
  have hentryParent : ∀ {p name c}, db.store.dentry p name = some c →
      hyp → ∃ inode, db.store.inode p = some inode := by
    intro p name c hdentry hhyp
    obtain ⟨inode, hinode, _⟩ := (hfit hhyp).linked.parent_dir hdentry
    exact ⟨inode, hinode⟩
  unfold applyRename prepareRename
  refine ensures_bind (query_bind hfit (okOrElse_bind ⟨_, rfl⟩ fun src hsrc => ?_))
  refine rejectIf_bind ⟨_, rfl⟩ fun hexpected => ?_
  have hexpected := not_not.1 hexpected
  subst hexpected
  refine query_bind hfit (rejectIf_bind ⟨_, rfl⟩ fun hdst => ?_)
  have hdst := not_not.1 hdst
  refine query_bind hfit (okOrElse_bind ⟨_, rfl⟩ fun srcInode hsrcInode => ?_)
  rw [hdst]
  cases expectedDst with
  | none =>
    refine reads_bind (prepareRenameParents_ensures hfit (hentryParent hsrc) fun hhyp => ?_) ?_
    · refine Option.ne_none_iff_exists'.1 fun hnone => hparent hhyp ?_
      exact ⟨hsrc, rfl, hdst, hnone⟩
    rintro ⟨srcParent, dstParent⟩ hparents
    refine ensures_pure (renameAtomic_ensures hfit ⟨_, ?_, rfl⟩)
    exact .renamed hsrc hdst hsrcInode (fun _ h => by cases h) hparents
  | some dstInodeId =>
    refine rejectIf_bind ⟨_, rfl⟩ fun _ => ?_
    by_cases hsame : src = dstInodeId
    · rw [if_pos hsame]
      subst hsame
      refine ensures_pure (renameAtomic_ensures hfit ⟨_, ?_, rfl⟩)
      exact .renameUnchanged hsrc hdst hsrcInode
    · rw [if_neg hsame]
      refine reads_bind (prepareRenameOverwrite_ensures hfit hfiles hdst) ?_
      rintro _ ⟨rfl, hover⟩
      refine reads_bind (prepareRenameParents_ensures hfit (hentryParent hsrc)
        (hentryParent hdst)) ?_
      rintro ⟨srcParent, dstParent⟩ hparents
      refine ensures_pure (renameAtomic_ensures hfit ⟨_, ?_, rfl⟩)
      refine .renamed hsrc hdst hsrcInode ?_ hparents
      rintro _ ⟨⟩
      exact ⟨fun h => hsame h.symm, hover⟩

end

end Beryl
