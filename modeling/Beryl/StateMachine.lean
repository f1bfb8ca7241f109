import Beryl.ApplyReclaim
import Beryl.ApplyWrite

/-!
# Applying one committed command

`applyCommitted` is the whole transition of the replicated state machine: a
successful command commits its change together with the apply state, an error
of the metadata domain commits the apply state alone, and every other error is
fatal.
-/

namespace Beryl

def applyRegisterWorker (groupName : GroupName) (workerId : WorkerId)
    (address : String) (workerNetProtocol : ℤ) (faultDomain : Option String)
    (raftState : AppMetadataRaftState) : StorageM WorkerId := do
  let workerInfo ← prepareWorkerRegistration groupName workerId address
    workerNetProtocol faultDomain
  registerWorkerAtomic workerInfo raftState
  pure workerInfo.workerId

/-- The `CreateDirectory` arm: a recursive command creates what is missing, a
plain one creates exactly one component. -/
def applyCreateDirectoryCommand (proposedAtMs : ℕ) (rootInodeId : InodeId)
    (components : List String) (attrs : InodeAttrs) (recursive : Bool)
    (raftState : AppMetadataRaftState) : StorageM (InodeId × InodeAttrs) :=
  if recursive then
    applyCreateDirectory rootInodeId components attrs proposedAtMs raftState
  else
    match components with
    | [name] => applyMkdir rootInodeId name attrs proposedAtMs raftState
    | _ => reject (.invalidArgument
        "non-recursive CreateDirectory requires exactly one path component")

def applyCommand (raftState : AppMetadataRaftState) :
    Command → StorageM ApplySuccess
  | .bootstrapNamespace proposedAtMs groupName => do
      let entry ← applyBootstrapNamespace groupName proposedAtMs raftState
      pure (.mountUpserted entry)
  | .registerWorkerDescriptor _ groupName workerId address workerNetProtocol
      faultDomain => do
      let workerId ← applyRegisterWorker groupName workerId address
        workerNetProtocol faultDomain raftState
      pure (.workerUpserted workerId)
  | .createDirectory proposedAtMs rootInodeId components attrs recursive => do
      let (inodeId, attrs) ← applyCreateDirectoryCommand proposedAtMs rootInodeId
        components attrs recursive raftState
      pure (.directoryEnsured inodeId attrs)
  | .createFile proposedAtMs operationId requestDeadlineMs sessionExpiresAtMs
      normalizedPath mountId expectedMountEpoch mountRootInodeId
      relativeComponents attrs layout => do
      let record ← applyCreate operationId requestDeadlineMs sessionExpiresAtMs
        normalizedPath mountId expectedMountEpoch mountRootInodeId
        relativeComponents attrs layout proposedAtMs raftState
      pure (.fileCreated record.inodeId record.layout record.leaseEpoch
        record.expiresAtMs record.generation)
  | .delete proposedAtMs mountId expectedMountEpoch mountRootInodeId
      relativeComponents expectedInodeId expectedFileLeaseEpoch recursive => do
      applyDelete mountId expectedMountEpoch mountRootInodeId relativeComponents
        expectedInodeId expectedFileLeaseEpoch recursive proposedAtMs raftState
      pure .deleteApplied
  | .rename proposedAtMs srcParentInodeId srcName expectedSrcInodeId
      dstParentInodeId dstName expectedDstInodeId expectedDstLeaseEpoch flags => do
      applyRename srcParentInodeId srcName expectedSrcInodeId dstParentInodeId
        dstName expectedDstInodeId expectedDstLeaseEpoch flags proposedAtMs
        raftState
      pure .renameApplied
  | .acquireWriteLease proposedAtMs inodeId expectedLeaseEpoch => do
      let leaseEpoch ← applyAcquireWriteLease inodeId expectedLeaseEpoch
        proposedAtMs raftState
      pure (.writeLeaseAcquired inodeId leaseEpoch)
  | .allocateBlock inodeId leaseEpoch => do
      let blockId ← applyAllocateBlock inodeId leaseEpoch raftState
      pure (.blockAllocated blockId)
  | .endWriteLease _ inodeId leaseEpoch => do
      let leaseEpoch ← applyEndWriteLease inodeId leaseEpoch raftState
      pure (.writeLeaseEnded inodeId leaseEpoch)
  | .publishFile proposedAtMs inodeId publication => do
      let generation ← applyPublishFile inodeId publication proposedAtMs raftState
      pure (.filePublished inodeId generation)
  | .commitFile proposedAtMs inodeId clientId callId publication => do
      let endedEpoch ← okOrElse (checkedNext publication.leaseEpoch)
        (.invalidArgument "write lease epoch overflow")
      let generation ← applyCommitFile inodeId clientId callId publication
        proposedAtMs raftState
      pure (.fileCommitted inodeId generation endedEpoch)
  | .reclaimDetachedRoots candidates maxEntries maxBatchBytes => do
      let result ← applyReclaimDetachedRoots candidates maxEntries maxBatchBytes
        raftState
      pure (.detachedRootsReclaimed result)

inductive ApplyFailure
  | fatal (error : FatalApplyError)
  | panicked (message : String)
deriving DecidableEq

def ApplyFailure.ofAbort : Abort → ApplyFailure
  | .failed error => .fatal ⟨error⟩
  | .panicked message => .panicked message

def applyCommitted (command : Command) (raftState : AppMetadataRaftState) :
    Transaction Db ApplyFailure CommittedApply := do
  let routingIntent := RoutingIntent.ofCommand command
  match ← Transaction.attempt (applyCommand raftState command) with
  | .ok success => pure (CommittedApply.new routingIntent (.ok success))
  | .error (.panicked message) => Transaction.fail (.panicked message)
  | .error (.failed error) =>
    match ApplyRejection.fromMetadataError error with
    | .error fatal => Transaction.fail (.fatal fatal)
    | .ok rejection => do
        match ← Transaction.attempt (commitAppliedState raftState) with
        | .error abort => Transaction.fail (ApplyFailure.ofAbort abort)
        | .ok () => pure (CommittedApply.new routingIntent (.error rejection))

end Beryl
