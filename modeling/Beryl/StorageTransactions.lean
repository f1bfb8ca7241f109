import Beryl.StorageQueries

/-!
# Atomic writes of the authority storage

Each mutation gathers its puts and deletes in one batch and commits that batch
together with the Raft apply state.
-/

namespace Beryl

def batchPutMount (batch : WriteBatch) (entry : MountEntry) :
    StorageM WriteBatch := do
  encode (.encodeMount entry.mountId)
  pure (batch ++ [.putMount entry])

def batchPutRouteEpoch (batch : WriteBatch) (epoch : ℕ) :
    StorageM WriteBatch := do
  encode .encodeRouteEpoch
  pure (batch ++ [.putRouteEpoch epoch])

def batchPutMountEpoch (batch : WriteBatch) (epoch : ℕ) :
    StorageM WriteBatch := do
  encode .encodeMountEpoch
  pure (batch ++ [.putMountEpoch epoch])

def batchPutInodeAllocation (batch : WriteBatch) (allocation : InodeAllocation) :
    StorageM WriteBatch := do
  encode .encodeNextInodeId
  pure (batch ++ [.putNextInodeId allocation.nextInodeId])

def batchPutWorker (batch : WriteBatch) (info : WorkerInfo) :
    StorageM WriteBatch := do
  encode (.encodeWorker info.workerId)
  pure (batch ++ [.putWorker info])

def batchPutInode (batch : WriteBatch) (inode : Inode) : StorageM WriteBatch := do
  encode (.encodeInode inode.inodeId)
  pure (batch ++ [.putInode inode])

/-- The target loop of `validate_inode_allocation_targets`: the ids count up
from `expected` and none of them is in use.  Returns the id after the last. -/
def validateTargetsFrom (expected : ℕ) : List InodeId → StorageM ℕ
  | [] => pure expected
  | inodeId :: rest => do
      rejectIf (inodeId ≠ expected) (.internal
        s!"inode allocation target {inodeId} is not the expected inode {expected}")
      let existing ← getInode inodeId
      rejectIf (existing.isSome = true)
        (.internal s!"inode allocation target already exists: {inodeId}")
      let next ← okOrElse (checkedAddU64 expected 1)
        (.internal "inode ID allocator overflow")
      validateTargetsFrom next rest

def validateInodeAllocationTargets (allocation : InodeAllocation)
    (targets : List InodeId) : StorageM Unit := do
  rejectIf (targets = [] ∨ allocation.inodeId < 2)
    (.internal "inode allocation has no valid target")
  let persisted ← okOrElse (← getNextInodeId)
    (.internal "next_inode_id allocator authority is missing")
  rejectIf (persisted ≠ allocation.inodeId) (.internal
    s!"inode allocation {allocation.inodeId} does not match durable next_inode_id {persisted}")
  let expected ← validateTargetsFrom allocation.inodeId targets
  rejectIf (allocation.nextInodeId ≠ expected) (.internal
    s!"inode allocation next value {allocation.nextInodeId} does not match expected {expected}")

def registerWorkerAtomic (info : WorkerInfo)
    (raftState : AppMetadataRaftState) : StorageM Unit := do
  rejectIf (info.workerId = 0)
    (.invalidArgument "worker_id must be non-zero for registration")
  let batch ← batchPutWorker [] info
  commitAuthorityBatch batch raftState

def putInodeAtomic (inode : Inode) (raftState : AppMetadataRaftState) :
    StorageM Unit := do
  let batch ← batchPutInode [] inode
  commitAuthorityBatch batch raftState

def bootstrapNamespaceAtomic (rootInode : Inode) (rootMount : MountEntry)
    (raftState : AppMetadataRaftState) : StorageM Unit := do
  let batch ← batchPutInode [] rootInode
  let batch ← batchPutMount batch rootMount
  let batch ← batchPutRouteEpoch batch 1
  let batch ← batchPutMountEpoch batch 1
  encode .encodeNextInodeId
  commitAuthorityBatch (batch ++ [.putNextInodeId 2]) raftState

/-- `create_file_batch` and `create_dir_batch`, which have the same body. -/
def createEntryBatch (batch : WriteBatch) (parentInodeId : InodeId)
    (name : String) (inode updatedParent : Inode) : StorageM WriteBatch := do
  let batch ← batchPutInode batch inode
  let batch ← batchPutInode batch updatedParent
  pure (batch ++ [.putDentry parentInodeId name inode.inodeId])

def createDirAtomic (allocation : InodeAllocation) (parentInodeId : InodeId)
    (name : String) (inode updatedParent : Inode)
    (raftState : AppMetadataRaftState) : StorageM Unit := do
  validateInodeAllocationTargets allocation [inode.inodeId]
  let batch ← createEntryBatch [] parentInodeId name inode updatedParent
  let batch ← batchPutInodeAllocation batch allocation
  commitAuthorityBatch batch raftState

structure RecursiveMkdirEntry where
  parentInodeId : InodeId
  name : String
  inode : Inode
  updatedParent : Inode
deriving DecidableEq, Repr

def createDirectoriesBatch (batch : WriteBatch) :
    List RecursiveMkdirEntry → StorageM WriteBatch
  | [] => pure batch
  | entry :: rest => do
      let batch ← createEntryBatch batch entry.parentInodeId entry.name entry.inode
        entry.updatedParent
      createDirectoriesBatch batch rest

def createDirectoriesAtomic (allocation : InodeAllocation)
    (entries : List RecursiveMkdirEntry) (raftState : AppMetadataRaftState) :
    StorageM Unit := do
  validateInodeAllocationTargets allocation
    (entries.map fun entry => entry.inode.inodeId)
  let batch ← createDirectoriesBatch [] entries
  let batch ← batchPutInodeAllocation batch allocation
  commitAuthorityBatch batch raftState

def maxCreateFileReplayRecords : ℕ := 65536

/-- Evict the replay record with the earliest expiry, if it has expired.  The
schema version key follows the expiry index in the `meta` family, so a scan of
an empty index ends on a key of another kind. -/
def evictExpiredReplay (batch : WriteBatch) (proposedAtMs : ℕ) :
    StorageM WriteBatch := do
  let first ← query .seekReplayExpiry fun s => s.createFileReplayExpiry.entries.head?
  let first ← okOrElse first
    (.internal "CreateFile replay count has no matching expiry index")
  let expiresAtMs := (ofLex first.1).1
  let expiredOperationId := CreateFileOperationId.ofKey (ofLex first.1).2
  rejectIf (expiresAtMs > proposedAtMs) (.resourceExhausted
    s!"CreateFile replay capacity {maxCreateFileReplayRecords} is exhausted")
  let expiredRecord ← query (.readReplay expiredOperationId) fun s =>
    s.createFileReplay.get expiredOperationId.key
  let expiredRecord ← okOrElse expiredRecord
    (.internal "CreateFile replay expiry index has no record")
  rejectIf (expiredRecord.operationId ≠ expiredOperationId)
    (.internal "CreateFile replay expiry index has a corrupt record")
  let indexedOperation ← query (.readReplayInode expiredRecord.inodeId) fun s =>
    s.createFileReplayInode.get expiredRecord.inodeId
  let indexedOperation ← okOrElse indexedOperation
    (.internal "expired CreateFile replay has no inode index")
  rejectIf (indexedOperation ≠ expiredOperationId)
    (.internal "expired CreateFile inode replay index names another operation")
  pure (batch ++ [.deleteReplayExpiry expiresAtMs expiredOperationId,
    .deleteReplay expiredOperationId, .deleteReplayInode expiredRecord.inodeId])

def batchPutCreateFileReplay (batch : WriteBatch)
    (record : CreateFileReplayRecord) (proposedAtMs : ℕ) :
    StorageM WriteBatch := do
  let existing ← query (.readReplay record.operationId) fun s =>
    s.createFileReplay.get record.operationId.key
  rejectIf (existing.isSome = true) (.internal
    "new CreateFile mutation attempted to overwrite a replay record")
  let indexed ← query (.readReplayInode record.inodeId) fun s =>
    s.createFileReplayInode.get record.inodeId
  rejectIf (indexed.isSome = true) (.internal
    "new CreateFile mutation attempted to overwrite an inode replay index")
  let replayCount ← query .readReplayCount fun s => s.createFileReplayCount.getD 0
  rejectIf (replayCount > maxCreateFileReplayRecords) (.internal
    s!"CreateFile replay count {replayCount} exceeds its compiled bound")
  let (batch, replayCount) ←
    if replayCount = maxCreateFileReplayRecords then do
      let batch ← evictExpiredReplay batch proposedAtMs
      pure (batch, replayCount - 1)
    else pure (batch, replayCount)
  encode (.encodeReplay record.operationId)
  encode .encodeReplayCount
  pure (batch ++ [.putReplay record, .putReplayInode record.inodeId record.operationId,
    .putReplayExpiry record.expiresAtMs record.operationId, .putReplayCount (replayCount + 1)])

def createFileAtomic (allocation : InodeAllocation) (parentInodeId : InodeId)
    (name : String) (inode updatedParent : Inode)
    (replayRecord : CreateFileReplayRecord) (proposedAtMs : ℕ)
    (raftState : AppMetadataRaftState) : StorageM Unit := do
  validateInodeAllocationTargets allocation [inode.inodeId]
  let batch ← createEntryBatch [] parentInodeId name inode updatedParent
  let batch ← batchPutInodeAllocation batch allocation
  let batch ← batchPutCreateFileReplay batch replayRecord proposedAtMs
  commitAuthorityBatch batch raftState

def unlinkInodeAtomic (parentInodeId : InodeId) (name : String)
    (inodeId : InodeId) (updatedParent : Inode)
    (raftState : AppMetadataRaftState) : StorageM Unit := do
  let batch ← batchPutInode
    [.deleteDentry parentInodeId name, .deleteInode inodeId] updatedParent
  commitAuthorityBatch batch raftState

def detachDirectoryAtomic (parentInodeId : InodeId) (name : String)
    (rootInodeId : InodeId) (updatedParent : Inode) (detachedRoot : DetachedRoot)
    (raftState : AppMetadataRaftState) : StorageM Unit := do
  let batch ← batchPutInode [.deleteDentry parentInodeId name] updatedParent
  encode (.encodeDetachedRoot detachedRoot)
  commitAuthorityBatch (batch ++ [.putDetachedRoot rootInodeId detachedRoot])
    raftState

structure RenameAtomicUpdate where
  srcParentInodeId : InodeId
  srcName : String
  dstParentInodeId : InodeId
  dstName : String
  srcInodeId : InodeId
  overwrittenTarget : Option InodeId
  updatedSrcParent : Option Inode
  updatedDstParent : Option Inode
deriving DecidableEq, Repr

def batchPutInodeOptional (batch : WriteBatch) :
    Option Inode → StorageM WriteBatch
  | none => pure batch
  | some inode => batchPutInode batch inode

/-- The dentry and inode deletes of `rename_batch` that precede its puts. -/
def RenameAtomicUpdate.moveOps (update : RenameAtomicUpdate) : WriteBatch :=
  (match update.overwrittenTarget with
    | none => []
    | some inodeId =>
      [.deleteInode inodeId, .deleteDentry update.dstParentInodeId update.dstName]) ++
    [.deleteDentry update.srcParentInodeId update.srcName,
      .putDentry update.dstParentInodeId update.dstName update.srcInodeId]

def renameAtomic (update : RenameAtomicUpdate)
    (raftState : AppMetadataRaftState) : StorageM Unit := do
  let batch ← batchPutInodeOptional update.moveOps update.updatedSrcParent
  let batch ← batchPutInodeOptional batch update.updatedDstParent
  commitAuthorityBatch batch raftState

structure DetachedRootReclaimEntry where
  parentInodeId : InodeId
  name : String
  inodeId : InodeId
  childDetachedRoot : Option DetachedRoot
deriving DecidableEq, Repr

structure DetachedRootReclaimUpdate where
  entries : List DetachedRootReclaimEntry
  completedRootInodeIds : List InodeId
deriving DecidableEq, Repr

def raftStateKeyLen : ℕ := 10
def inodeKeyLen : ℕ := 14
def detachedRootKeyLen : ℕ := 8
def dentryKeyLen (name : String) : ℕ := 15 + name.utf8ByteSize

/-- The length of an unsigned integer in bincode's standard configuration. -/
def varintLen (value : ℕ) : ℕ :=
  if value < 251 then 1 else if value < 2 ^ 16 then 3
  else if value < 2 ^ 32 then 5 else 9

def DetachedRoot.encodedLen (root : DetachedRoot) : ℕ :=
  varintLen root.mountId + varintLen root.detachedAtMs

def logicalByteOverflow : MetadataError :=
  .internal "detached-root logical byte count overflow"

def DetachedRootReclaimEntry.logicalBytes (entry : DetachedRootReclaimEntry) :
    StorageM ℕ := do
  let bytes := dentryKeyLen entry.name
  match entry.childDetachedRoot with
  | some root => do
      encode (.encodeDetachedRoot root)
      let bytes ← okOrElse (checkedAddU64 bytes detachedRootKeyLen) logicalByteOverflow
      okOrElse (checkedAddU64 bytes root.encodedLen) logicalByteOverflow
  | none => okOrElse (checkedAddU64 bytes inodeKeyLen) logicalByteOverflow

def completedRootLogicalBytes : StorageM ℕ :=
  okOrElse (checkedAddU64 inodeKeyLen detachedRootKeyLen) logicalByteOverflow

def entriesLogicalBytes (bytes : ℕ) :
    List DetachedRootReclaimEntry → StorageM ℕ
  | [] => pure bytes
  | entry :: rest => do
      let bytes ← okOrElse (checkedAddU64 bytes (← entry.logicalBytes))
        logicalByteOverflow
      entriesLogicalBytes bytes rest

def completionsLogicalBytes (bytes : ℕ) : List InodeId → StorageM ℕ
  | [] => pure bytes
  | _ :: rest => do
      let bytes ← okOrElse (checkedAddU64 bytes (← completedRootLogicalBytes))
        logicalByteOverflow
      completionsLogicalBytes bytes rest

/-- The serialised length of the apply state that is about to be written. -/
def raftStateLen (raftState : AppMetadataRaftState) : StorageM ℕ := fun db =>
  (.ok (db.env.raftStateJsonLen raftState), db)

def DetachedRootReclaimUpdate.logicalBatchBytes
    (update : DetachedRootReclaimUpdate) (raftState : AppMetadataRaftState) :
    StorageM ℕ := do
  encode .encodeRaftState
  let bytes ← okOrElse (checkedAddU64 raftStateKeyLen (← raftStateLen raftState))
    logicalByteOverflow
  let bytes ← entriesLogicalBytes bytes update.entries
  completionsLogicalBytes bytes update.completedRootInodeIds

def reclaimEntriesBatch (batch : WriteBatch) :
    List DetachedRootReclaimEntry → StorageM WriteBatch
  | [] => pure batch
  | entry :: rest =>
    let batch := batch ++ [.deleteDentry entry.parentInodeId entry.name]
    match entry.childDetachedRoot with
    | some root => do
        encode (.encodeDetachedRoot root)
        reclaimEntriesBatch (batch ++ [.putDetachedRoot entry.inodeId root]) rest
    | none => reclaimEntriesBatch (batch ++ [.deleteInode entry.inodeId]) rest

def completionOps (roots : List InodeId) : WriteBatch :=
  roots.flatMap fun root => [.deleteInode root, .deleteDetachedRoot root]

def reclaimDetachedRootsAtomic (update : DetachedRootReclaimUpdate)
    (raftState : AppMetadataRaftState) : StorageM Unit := do
  let batch ← reclaimEntriesBatch [] update.entries
  commitAuthorityBatch (batch ++ completionOps update.completedRootInodeIds)
    raftState

end Beryl
