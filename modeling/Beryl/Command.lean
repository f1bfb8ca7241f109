import Beryl.Storage

/-!
# Replicated commands and their outcomes
-/

namespace Beryl

inductive Command
  | bootstrapNamespace (proposedAtMs : ℕ) (groupName : GroupName)
  | createDirectory (proposedAtMs : ℕ) (rootInodeId : InodeId)
      (components : List String) (attrs : InodeAttrs) (recursive : Bool)
  | createFile (proposedAtMs : ℕ) (operationId : CreateFileOperationId)
      (requestDeadlineMs sessionExpiresAtMs : ℕ) (normalizedPath : String)
      (mountId : MountId) (expectedMountEpoch : ℕ) (mountRootInodeId : InodeId)
      (relativeComponents : List String) (attrs : InodeAttrs) (layout : FileLayout)
  | delete (proposedAtMs : ℕ) (mountId : MountId) (expectedMountEpoch : ℕ)
      (mountRootInodeId : InodeId) (relativeComponents : List String)
      (expectedInodeId : InodeId) (expectedFileLeaseEpoch : Option LeaseEpoch)
      (recursive : Bool)
  | rename (proposedAtMs : ℕ) (srcParentInodeId : InodeId) (srcName : String)
      (expectedSrcInodeId : InodeId) (dstParentInodeId : InodeId)
      (dstName : String) (expectedDstInodeId : Option InodeId)
      (expectedDstLeaseEpoch : Option LeaseEpoch) (flags : UInt32)
  | acquireWriteLease (proposedAtMs : ℕ) (inodeId : InodeId)
      (expectedLeaseEpoch : LeaseEpoch)
  | allocateBlock (inodeId : InodeId) (leaseEpoch : LeaseEpoch)
  | endWriteLease (proposedAtMs : ℕ) (inodeId : InodeId) (leaseEpoch : LeaseEpoch)
  | publishFile (proposedAtMs : ℕ) (inodeId : InodeId)
      (publication : FilePublication)
  | commitFile (proposedAtMs : ℕ) (inodeId : InodeId) (clientId : ClientId)
      (callId : CallId) (publication : FilePublication)
  | registerWorkerDescriptor (proposedAtMs : ℕ) (groupName : GroupName)
      (workerId : WorkerId) (address : String) (workerNetProtocol : ℤ)
      (faultDomain : Option String)
  | reclaimDetachedRoots (candidateRootInodeIds : List InodeId)
      (maxEntries maxBatchBytes : ℕ)
deriving DecidableEq

def maxReclaimDetachedRootCandidates : ℕ := 64
def maxReclaimDetachedRootEntries : ℕ := 256
def minReclaimDetachedRootBatchBytes : ℕ := 4 * 1024
def maxReclaimDetachedRootBatchBytes : ℕ := 1024 * 1024

structure DetachedRootReclaimResult where
  processedEntries : ℕ
  completedRoots : ℕ
  createdRoots : ℕ
  logicalBatchBytes : ℕ
deriving DecidableEq, Repr

inductive ApplySuccess
  | mountUpserted (entry : MountEntry)
  | directoryEnsured (inodeId : InodeId) (attrs : InodeAttrs)
  | fileCreated (inodeId : InodeId) (layout : FileLayout) (leaseEpoch : LeaseEpoch)
      (expiresAtMs : ℕ) (generation : ContentGeneration)
  | deleteApplied
  | renameApplied
  | writeLeaseAcquired (inodeId : InodeId) (leaseEpoch : LeaseEpoch)
  | blockAllocated (blockId : BlockId)
  | writeLeaseEnded (inodeId : InodeId) (leaseEpoch : LeaseEpoch)
  | filePublished (inodeId : InodeId) (generation : ContentGeneration)
  | fileCommitted (inodeId : InodeId) (generation : ContentGeneration)
      (leaseEpoch : LeaseEpoch)
  | workerUpserted (workerId : WorkerId)
  | detachedRootsReclaimed (result : DetachedRootReclaimResult)
deriving DecidableEq

inductive ApplyRejectionKind
  | notFound
  | alreadyExists
  | invalidArgument
  | notDir
  | isDir
  | directoryNotEmpty
  | crossMountRename
  | permissionDenied
  | notSupported
  | busy
  | activeWorkerConflict
  | again
  | resourceExhausted
  | leaseFenced (expected got : LeaseEpoch)
deriving DecidableEq, Repr

structure ApplyRejection where
  kind : ApplyRejectionKind
  message : String
deriving DecidableEq, Repr

/-- `FatalApplyError`: the entry is not applied and the replica stops. -/
structure FatalApplyError where
  error : MetadataError
deriving DecidableEq, Repr

def ApplyRejection.fromMetadataError :
    MetadataError → Except FatalApplyError ApplyRejection
  | .notFound message => .ok ⟨.notFound, message⟩
  | .alreadyExists message => .ok ⟨.alreadyExists, message⟩
  | .invalidArgument message => .ok ⟨.invalidArgument, message⟩
  | .notDir message => .ok ⟨.notDir, message⟩
  | .isDir message => .ok ⟨.isDir, message⟩
  | .directoryNotEmpty message => .ok ⟨.directoryNotEmpty, message⟩
  | .crossMountRename message => .ok ⟨.crossMountRename, message⟩
  | .permissionDenied message => .ok ⟨.permissionDenied, message⟩
  | .notSupported message => .ok ⟨.notSupported, message⟩
  | .busy message => .ok ⟨.busy, message⟩
  | .activeWorkerConflict message => .ok ⟨.activeWorkerConflict, message⟩
  | .again message => .ok ⟨.again, message⟩
  | .resourceExhausted message => .ok ⟨.resourceExhausted, message⟩
  | .leaseFenced expected got => .ok ⟨.leaseFenced expected got,
      s!"lease fenced: expected epoch >= {expected}, got {got}"⟩
  | error => .error ⟨error⟩

def MetadataError.Rejectable (error : MetadataError) : Prop :=
  ∃ rejection, ApplyRejection.fromMetadataError error = .ok rejection

inductive RoutingIntent
  | none
  | upsert
deriving DecidableEq, Repr

def RoutingIntent.ofCommand : Command → RoutingIntent
  | .bootstrapNamespace _ _ => .upsert
  | _ => .none

inductive RoutingDelta
  | none
  | upsert (entry : MountEntry)
deriving DecidableEq

abbrev RaftApplyResult := Except ApplyRejection ApplySuccess

structure CommittedApply where
  response : RaftApplyResult
  routingDelta : RoutingDelta

def CommittedApply.new (intent : RoutingIntent) (response : RaftApplyResult) :
    CommittedApply where
  response := response
  routingDelta :=
    match intent, response with
    | .upsert, .ok (.mountUpserted entry) => .upsert entry
    | _, _ => .none

end Beryl
