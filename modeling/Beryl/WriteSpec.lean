import Beryl.StorageSpec

/-!
# Specifications of the file commands
-/

namespace Beryl

open Transaction FilePublication Inode

variable {error : MetadataError} {publication : FilePublication} {file : FileData}
  {inodeId : InodeId} {inode : Inode} {proposedAtMs : ℕ}

theorem blockCount_error {len capacity : ℕ} (h : FileData.blockCount len capacity = .error error) :
    error.Rejectable := by
  unfold FileData.blockCount at h
  split at h
  · cases h
    exact ⟨_, rfl⟩
  · split at h
    · cases h
      exact ⟨_, rfl⟩
    · cases h

theorem tailIndex_error {count : ℕ} (h : publication.tailIndex file count = .error error) :
    error.Rejectable := by
  unfold tailIndex at h
  split at h
  · cases h
  · split at h
    · cases h
      exact ⟨_, rfl⟩
    · split at h <;> cases h

theorem startIndex_error (h : publication.startIndex file = .error error) : error.Rejectable := by
  unfold FilePublication.startIndex at h
  split at h
  next hcount =>
    cases h
    exact blockCount_error hcount
  next =>
    split at h
    next htail =>
      cases h
      exact tailIndex_error htail
    next =>
      split at h
      · cases h
        exact ⟨_, rfl⟩
      · split at h
        · cases h
          exact ⟨_, rfl⟩
        · cases h

theorem matchesVisible_error (h : publication.matchesVisible file = .error error) :
    error.Rejectable := by
  unfold matchesVisible at h
  split at h
  next hstart =>
    cases h
    exact startIndex_error hstart
  next => cases h

theorem keptBlocks_error {start : ℕ} (h : publication.keptBlocks file start = .error error) :
    error.Rejectable := by
  unfold keptBlocks at h
  split at h
  · cases h
  · split at h
    · cases h
      exact ⟨_, rfl⟩
    · split at h
      · cases h
        exact ⟨_, rfl⟩
      · cases h

theorem appendBlocks_error {mode : PublishMode} {blocks : List BlockId}
    {added : List CommittedBlock}
    (h : FilePublication.appendBlocks inodeId file mode blocks added = .error error) :
    error.Rejectable := by
  induction added generalizing blocks with
  | nil => cases h
  | cons block rest ih =>
    unfold appendBlocks at h
    split at h
    · cases h
      exact ⟨_, rfl⟩
    · split at h
      · cases h
        exact ⟨_, rfl⟩
      · exact ih h

theorem mergedBlocks_error (hvalid : file.validate inodeId = .ok ())
    (h : publication.mergedBlocks inodeId file = .error error) : error.Rejectable := by
  unfold mergedBlocks at h
  simp only [hvalid] at h
  split at h
  next hstart =>
    cases h
    exact startIndex_error hstart
  next =>
    split at h
    next hkept =>
      cases h
      exact keptBlocks_error hkept
    next => exact appendBlocks_error h

theorem prepareFilePublication_error {s : Store} (hfile : FileAt s inodeId inode file)
    (h : prepareFilePublication inode publication proposedAtMs = .error error) :
    error.Rejectable := by
  unfold prepareFilePublication at h
  simp only [file_eq_ok.2 hfile.kind_eq, hfile.id_eq] at h
  split at h
  · cases h
    exact ⟨_, rfl⟩
  · split at h
    next hmatches =>
      cases h
      exact matchesVisible_error hmatches
    next =>
      split at h
      · cases h
      · split at h
        · cases h
          exact ⟨_, rfl⟩
        · split at h
          · cases h
          · split at h
            next hmerged =>
              cases h
              exact mergedBlocks_error hfile.valid hmerged
            next =>
              split at h
              · cases h
                exact ⟨_, rfl⟩
              · cases h

theorem FileCommit.Agrees.not_disagrees {commit : FileCommit} (h : commit.Agrees file) :
    commit.disagrees file = false := by
  unfold FileCommit.disagrees checkedNext
  rw [checkedAddU64_of_lt h.epoch_bound]
  have hepoch := h.epoch_lt
  have hended : ¬file.leaseEpoch < commit.leaseEpoch + 1 := by lia
  simp [h.generation_eq, h.size_eq, hended]

theorem resolveCommit_error {s : Store} {clientId : ClientId} {callId : CallId}
    (hfiles : FilesSound s) (hfile : FileAt s inodeId inode file)
    (h : publication.resolveCommit inode clientId callId = .error error) : error.Rejectable := by
  unfold resolveCommit at h
  simp only [file_eq_ok.2 hfile.kind_eq] at h
  split at h
  · cases h
  next commit hcommit =>
    have hagrees := hfiles.evidence hfile.inode_eq hfile.kind_eq hcommit
    simp only [hagrees.not_disagrees] at h
    split at h
    · cases h
    · split at h
      · contradiction
      · split at h
        · cases h
          exact ⟨_, rfl⟩
        · split at h
          next hmatches =>
            cases h
            exact matchesVisible_error hmatches
          next =>
            cases h
            exact ⟨_, rfl⟩
          next => cases h

variable {hyp : Prop} {db : Db} {raftState : AppMetadataRaftState}

def Store.OnlyFileAt (s : Store) (inodeId : InodeId) : Prop :=
  ∀ inode, s.inode inodeId = some inode → ∃ file, inode.kind = .file file

section

variable (hfit : hyp → db.Fit)
include hfit

theorem loadFileInode_ensures
    (hfiles : hyp → FilesSound db.store) (hkind : hyp → db.store.OnlyFileAt inodeId) :
    Ensures (loadFileInode inodeId) db
      (fun inode db' => db' = db ∧ ∃ file, FileAt db.store inodeId inode file)
      (Refusal hyp db) := by
  unfold loadFileInode ensureFileInodeAuthority
  refine query_bind hfit (okOrElse_bind ⟨_, rfl⟩ fun inode hinode => ensures_bind ?_)
  refine failIf_bind (fun hbad => .excluded fun hhyp => ?_) fun hgood => ?_
  · rcases hbad with hid | hkind'
    · exact hid ((hfit hhyp).linked.inodeId_eq hinode)
    · exact hkind' (fileType_eq_file.2 (hkind hhyp inode hinode))
  rw [not_or, not_not, not_not] at hgood
  obtain ⟨file, hfile⟩ := fileType_eq_file.1 hgood.2
  refine ofResult_bind (fun error herror => ?_) fun file' hfile' => ?_
  · rw [file_eq_ok.2 hfile] at herror
    cases herror
  have heq : file' = file := by
    rw [file_eq_ok.2 hfile] at hfile'
    cases hfile'
    rfl
  subst heq
  refine ofResult_ensures (fun error herror => .excluded fun hhyp => ?_)
    fun _ hvalid => ensures_pure ⟨rfl, file', hinode, hgood.1, hfile, hvalid⟩
  rw [(hfiles hhyp).validate_eq hinode hfile] at herror
  cases herror

theorem applyAllocateBlock_ensures {leaseEpoch : LeaseEpoch} (hfiles : hyp → FilesSound db.store)
    (hkind : hyp → db.store.OnlyFileAt inodeId) :
    Ensures (applyAllocateBlock inodeId leaseEpoch raftState) db
      (fun blockId => Commits db (.allocateBlock inodeId leaseEpoch) raftState
        (.blockAllocated blockId)) (Refusal hyp db) := by
  unfold applyAllocateBlock
  refine reads_bind (loadFileInode_ensures hfit hfiles hkind) ?_
  rintro inode ⟨file, hfile⟩
  rw [file_eq_ok.2 hfile.kind_eq]
  refine ensures_bind (ensures_pure ?_)
  refine rejectIf_bind ⟨_, rfl⟩ fun hepoch => ?_
  have hepoch := not_not.1 hepoch
  subst hepoch
  refine okOrElse_bind ⟨_, rfl⟩ fun index hindex => ?_
  have hbound : index = file.nextIndex ∧ file.nextIndex < 2 ^ 32 := by
    unfold u32TryFrom at hindex
    split at hindex
    next hlt =>
      cases hindex
      exact ⟨rfl, hlt⟩
    next => cases hindex
  obtain ⟨rfl, hbound⟩ := hbound
  exact ensures_bind (putInodeAtomic_ensures hfit
    (ensures_pure ⟨_, .blockAllocated hfile hbound, rfl⟩))

theorem applyAcquireWriteLease_ensures {expectedLeaseEpoch : LeaseEpoch}
    (hfiles : hyp → FilesSound db.store) (hreplay : hyp → ReplaySound db.store)
    (hkind : hyp → db.store.OnlyFileAt inodeId) :
    Ensures (applyAcquireWriteLease inodeId expectedLeaseEpoch proposedAtMs raftState)
      db (fun leaseEpoch => Commits db
        (.acquireWriteLease proposedAtMs inodeId expectedLeaseEpoch) raftState
        (.writeLeaseAcquired inodeId leaseEpoch)) (Refusal hyp db) := by
  unfold applyAcquireWriteLease
  refine reads_bind (loadFileInode_ensures hfit hfiles hkind) ?_
  rintro inode ⟨file, hfile⟩
  rw [file_eq_ok.2 hfile.kind_eq]
  refine ensures_bind (ensures_pure ?_)
  refine reads_bind (getCreateFileReplayForInode_ensures hfit hreplay) ?_
  intro replay hindexed
  have hsession : Ensures (rejectInitialSession replay file proposedAtMs) db
      (fun _ db' => db' = db ∧ ∀ record, replay = some record →
        ¬record.ownsInitialSession file proposedAtMs) (Refusal hyp db) := by
    unfold rejectInitialSession
    cases replay with
    | none => exact ensures_pure ⟨rfl, fun _ h => by cases h⟩
    | some =>
      refine ensures_failIf (fun _ => .rejected ⟨_, rfl⟩) fun hfree => ⟨rfl, ?_⟩
      rintro _ ⟨⟩
      exact hfree
  refine reads_bind hsession fun _ hfree => ?_
  refine rejectIf_bind ⟨_, rfl⟩ fun hepoch => ?_
  have hepoch := not_not.1 hepoch
  subst hepoch
  refine okOrElse_bind ⟨_, rfl⟩ fun next hnext => ?_
  obtain ⟨rfl, hbound⟩ := checkedAddU64_eq_some hnext
  refine ensures_bind (putInodeAtomic_ensures hfit
    (ensures_pure ⟨_, .leaseAcquired hfile hbound ?_, rfl⟩))
  intro operationId record hindex hrecord
  exact hfree record (hindexed operationId record hindex hrecord)

theorem applyEndWriteLease_ensures {leaseEpoch : LeaseEpoch} (hfiles : hyp → FilesSound db.store)
    (hkind : hyp → db.store.OnlyFileAt inodeId) :
    Ensures (applyEndWriteLease inodeId leaseEpoch raftState) db
      (fun ended => Commits db (.endWriteLease proposedAtMs inodeId leaseEpoch)
        raftState (.writeLeaseEnded inodeId ended)) (Refusal hyp db) := by
  unfold applyEndWriteLease
  refine reads_bind (loadFileInode_ensures hfit hfiles hkind) ?_
  rintro inode ⟨file, hfile⟩
  rw [file_eq_ok.2 hfile.kind_eq]
  refine ensures_bind (ensures_pure ?_)
  refine okOrElse_bind ⟨_, rfl⟩ fun next hnext => ?_
  obtain ⟨rfl, hbound⟩ := checkedAddU64_eq_some hnext
  by_cases hended : file.leaseEpoch = leaseEpoch + 1
  · rw [if_pos hended]
    exact commit_bind hfit (ensures_pure ⟨_, .leaseEndRepeated hfile hended, rfl⟩)
  · rw [if_neg hended]
    refine rejectIf_bind ⟨_, rfl⟩ fun hepoch => ?_
    have hepoch := not_not.1 hepoch
    subst hepoch
    exact ensures_bind (putInodeAtomic_ensures hfit (ensures_pure ⟨_, .leaseEnded hfile, rfl⟩))

theorem applyPublishFile_ensures (hfiles : hyp → FilesSound db.store)
    (hkind : hyp → db.store.OnlyFileAt inodeId) :
    Ensures (applyPublishFile inodeId publication proposedAtMs raftState) db
      (fun generation => Commits db (.publishFile proposedAtMs inodeId publication)
        raftState (.filePublished inodeId generation)) (Refusal hyp db) := by
  unfold applyPublishFile
  refine reads_bind (loadFileInode_ensures hfit hfiles hkind) ?_
  rintro inode ⟨file, hfile⟩
  refine ofResult_bind (fun error herror => .rejected (prepareFilePublication_error hfile herror))
    fun prepared hprepared => ?_
  cases hchanged : prepared.changed with
  | true =>
    exact ensures_bind (putInodeAtomic_ensures hfit
      (ensures_pure ⟨_, .filePublished hfile hprepared hchanged, rfl⟩))
  | false =>
    exact commit_bind hfit (ensures_pure ⟨_, .publishUnchanged hfile hprepared hchanged, rfl⟩)

end

theorem prepareFilePublication_file {prepared : PreparedPublication}
    (h : prepareFilePublication inode publication proposedAtMs = .ok prepared) :
    ∃ file, prepared.inode.kind = .file file := by
  unfold prepareFilePublication at h
  split at h
  · cases h
  next file hfile =>
    have hkind : inode.kind = .file file := file_eq_ok.1 hfile
    split at h
    · cases h
    · split at h
      · cases h
      · split at h
        · cases h
          exact ⟨file, hkind⟩
        · split at h
          · cases h
          · split at h
            · cases h
              exact ⟨file, hkind⟩
            · split at h
              · cases h
              · split at h
                · cases h
                · cases h
                  exact ⟨_, rfl⟩

theorem applyCommitFile_ensures {clientId : ClientId} {callId : CallId} (hfit : hyp → db.Fit)
    (hfiles : hyp → FilesSound db.store) (hkind : hyp → db.store.OnlyFileAt inodeId) :
    Ensures (applyCommitFile inodeId clientId callId publication proposedAtMs raftState)
      db (fun generation => Commits db
        (.commitFile proposedAtMs inodeId clientId callId publication) raftState
        (.fileCommitted inodeId generation (publication.leaseEpoch + 1))) (Refusal hyp db) := by
  unfold applyCommitFile
  refine reads_bind (loadFileInode_ensures hfit hfiles hkind) ?_
  rintro inode ⟨file, hfile⟩
  refine ofResult_bind (fun error herror => ⟨rfl, error, rfl, fun hhyp =>
    resolveCommit_error (hfiles hhyp) hfile herror⟩) fun resolved hresolved => ?_
  cases resolved with
  | some =>
    exact commit_bind hfit (ensures_pure ⟨_, .commitReplayed hfile hresolved, rfl⟩)
  | none =>
    simp only [file_eq_ok.2 hfile.kind_eq]
    refine ensures_bind (ensures_pure ?_)
    refine rejectIf_bind ⟨_, rfl⟩ fun hgeneration => ?_
    refine okOrElse_bind ⟨_, rfl⟩ fun ended hended => ?_
    obtain ⟨rfl, hbound⟩ := checkedAddU64_eq_some hended
    refine ofResult_bind (fun error herror => .rejected (prepareFilePublication_error hfile herror))
      fun prepared hprepared => ?_
    obtain ⟨published, hpublished⟩ := prepareFilePublication_file hprepared
    rw [file_eq_ok.2 hpublished]
    refine ensures_bind (ensures_pure ?_)
    exact ensures_bind (putInodeAtomic_ensures hfit (ensures_pure
      ⟨_, .fileCommitted hfile hresolved (not_not.1 hgeneration) hbound hprepared hpublished, rfl⟩))

end Beryl
