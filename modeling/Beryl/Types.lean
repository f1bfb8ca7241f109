import Mathlib.Tactic

/-!
# Durable values of the metadata service

The identifiers, inode values, mount and replay records that the metadata
service stores, and the errors its operations return.  Identifiers and counters
are the unsigned machine integers of the source kept as natural numbers; the
places where the source checks for overflow are written as checked additions.
-/

namespace Beryl

/-- `u64::checked_add` (and `usize::checked_add` on a 64-bit target). -/
def checkedAddU64 (left right : ℕ) : Option ℕ :=
  if left + right < 2 ^ 64 then some (left + right) else none

theorem checkedAddU64_eq_some {left right total : ℕ} (h : checkedAddU64 left right = some total) :
    total = left + right ∧ left + right < 2 ^ 64 := by
  unfold checkedAddU64 at h
  split at h
  next hlt =>
    cases h
    exact ⟨rfl, hlt⟩
  next => cases h

theorem checkedAddU64_of_lt {left right : ℕ} (h : left + right < 2 ^ 64) :
    checkedAddU64 left right = some (left + right) := if_pos h

abbrev InodeId := ℕ
abbrev MountId := ℕ
abbrev WorkerId := ℕ
abbrev ClientId := ℕ
abbrev CallId := ℕ
abbrev LeaseEpoch := ℕ
abbrev ContentGeneration := ℕ
abbrev BlockIndex := ℕ

/-- `LeaseEpoch::checked_next` and `ContentGeneration::checked_next`. -/
def checkedNext (value : ℕ) : Option ℕ := checkedAddU64 value 1

theorem checkedNext_eq_some {value next : ℕ} (h : checkedNext value = some next) :
    next = value + 1 := (checkedAddU64_eq_some h).1

def debugId (typeName : String) (value : ℕ) : String := s!"{typeName}({value})"

def debugOptionId (typeName : String) : Option ℕ → String
  | none => "None"
  | some value => s!"Some({debugId typeName value})"

structure BlockId where
  inodeId : InodeId
  index : BlockIndex
deriving DecidableEq, Repr

structure CommittedBlock where
  blockId : BlockId
  len : ℕ
deriving DecidableEq, Repr

/-- The stable identity of one replayable `CreateFile` operation. -/
structure CreateFileOperationId where
  clientId : ClientId
  callId : CallId
deriving DecidableEq, Repr

inductive GroupNameError
  | empty
  | tooLong
  | invalidStart
  | invalidCharacter
deriving DecidableEq, Repr

def isAsciiLowercaseOrDigit (c : Char) : Bool := c.isLower || c.isDigit

/-- What `GroupName::parse` accepts once the surrounding blanks are gone. -/
def checkGroupName (value : String) : Except GroupNameError Unit :=
  match value.toList with
  | [] => .error .empty
  | first :: rest =>
    if value.utf8ByteSize > 63 then .error .tooLong
    else if !isAsciiLowercaseOrDigit first then .error .invalidStart
    else if !rest.all (fun c => isAsciiLowercaseOrDigit c || c == '.' || c == '_' || c == '-') then
      .error .invalidCharacter
    else .ok ()

/-- A validated group name; the private field of the source's newtype. -/
structure GroupName where
  asStr : String
  valid : checkGroupName asStr = .ok ()
deriving DecidableEq

theorem checkGroupName_root : checkGroupName "root" = .ok () := by decide

inductive MetadataError
  | notFound (message : String)
  | alreadyExists (message : String)
  | invalidArgument (message : String)
  | notDir (message : String)
  | isDir (message : String)
  | directoryNotEmpty (message : String)
  | crossMountRename (message : String)
  | permissionDenied (message : String)
  | notSupported (message : String)
  | busy (message : String)
  | activeWorkerConflict (message : String)
  | again (message : String)
  | resourceExhausted (message : String)
  | writeSessionLimitExceeded (message : String)
  | globalWriteTargetLimitExceeded (message : String)
  | leaseFenced (expected got : LeaseEpoch)
  | leaderChanged (message : String)
  | epochMismatch (expected got : ℕ)
  | mountEpochMismatch (expected got : ℕ) (mountId : Option MountId)
  | routingStale (message : String)
  | staleState (message : String)
  | fullReportRequired (message : String)
  | internal (message : String)
  | serviceUnavailable (message : String)
deriving DecidableEq, Repr

abbrev MetadataResult (α : Type) := Except MetadataError α

theorem mapError_eq_ok {ε ε' α : Type} {f : ε → ε'} {result : Except ε α} {value : α} :
    result.mapError f = .ok value ↔ result = .ok value := by
  cases result with
  | error | ok => simp [Except.mapError]

abbrev BlockFormatId := ℕ

def maxBlockSize : ℕ := 1024 * 1024 * 1024
def durablePrefixStorageChunkSize : ℕ := 4 * 1024 * 1024
def maxFileBlocks : ℕ := 10000

/-- `BlockFormatId::DURABLE_PREFIX`, the format of newly created files. -/
def BlockFormatId.durablePrefix : BlockFormatId := 2

structure BlockFormatSpec where
  storageChunkSize : ℕ
deriving DecidableEq, Repr

structure BlockFormatIdError where
  raw : ℕ
deriving DecidableEq, Repr

def BlockFormatIdError.display (error : BlockFormatIdError) : String :=
  s!"unknown block_format_id {error.raw}"

def BlockFormatId.spec (format : BlockFormatId) :
    Except BlockFormatIdError BlockFormatSpec :=
  if format = BlockFormatId.durablePrefix then
    .ok ⟨durablePrefixStorageChunkSize⟩
  else .error ⟨format⟩

inductive BlockShapeError
  | zeroBlockSize
  | blockTooLarge (actual maximum : ℕ)
  | storageChunkSizeMismatch (expected got : ℕ)
  | unknownBlockFormat (error : BlockFormatIdError)
  | zeroEffectiveLen
  | effectiveLenExceedsBlock
deriving DecidableEq, Repr

/-- `FileLayoutError`; `unreachable` stands for the two panics of
`FileLayoutError::from_block_shape_error`. -/
inductive FileLayoutError
  | zeroBlockSize
  | blockTooLarge (actual maximum : ℕ)
  | unknownBlockFormat (error : BlockFormatIdError)
  | unreachable (message : String)
deriving DecidableEq, Repr

def FileLayoutError.display : FileLayoutError → String
  | .zeroBlockSize => "block_size must be non-zero"
  | .blockTooLarge actual maximum =>
    s!"block_size {actual} exceeds maximum {maximum}"
  | .unknownBlockFormat error => error.display
  | .unreachable message => message

def FileLayoutError.fromBlockShapeError : BlockShapeError → FileLayoutError
  | .zeroBlockSize => .zeroBlockSize
  | .blockTooLarge actual maximum => .blockTooLarge actual maximum
  | .storageChunkSizeMismatch _ _ =>
    .unreachable "FileLayout derives storage chunk size from its block format"
  | .unknownBlockFormat error => .unknownBlockFormat error
  | .zeroEffectiveLen | .effectiveLenExceedsBlock =>
    .unreachable "FileLayout validates block shape with effective_len=block_size"

def validateBlockLayoutParts (format : BlockFormatId)
    (blockSize chunkSize : ℕ) : Except BlockShapeError Unit :=
  if blockSize = 0 then .error .zeroBlockSize
  else if blockSize > maxBlockSize then
    .error (.blockTooLarge blockSize maxBlockSize)
  else match format.spec with
    | .error error => .error (.unknownBlockFormat error)
    | .ok spec =>
      if chunkSize ≠ spec.storageChunkSize then
        .error (.storageChunkSizeMismatch spec.storageChunkSize chunkSize)
      else .ok ()

def checkBlockShape (format : BlockFormatId)
    (blockSize chunkSize effectiveLen : ℕ) : Except BlockShapeError Unit :=
  match validateBlockLayoutParts format blockSize chunkSize with
  | .error error => .error error
  | .ok () =>
    if effectiveLen = 0 then .error .zeroEffectiveLen
    else if effectiveLen > blockSize then .error .effectiveLenExceedsBlock
    else .ok ()

structure FileLayout where
  blockSize : ℕ
  blockFormatId : BlockFormatId
deriving DecidableEq, Repr

def FileLayout.validate (layout : FileLayout) : Except FileLayoutError Unit :=
  match layout.blockFormatId.spec with
  | .error error => .error (.unknownBlockFormat error)
  | .ok format =>
    match checkBlockShape layout.blockFormatId layout.blockSize
        format.storageChunkSize layout.blockSize with
    | .error error => .error (FileLayoutError.fromBlockShapeError error)
    | .ok () => .ok ()

/-- The layouts that pass: the current block format, and a block size between
one byte and the format's ceiling. -/
theorem FileLayout.validate_eq_ok_iff (layout : FileLayout) : layout.validate = .ok () ↔
      layout.blockFormatId = BlockFormatId.durablePrefix ∧
        0 < layout.blockSize ∧ layout.blockSize ≤ maxBlockSize := by
  unfold FileLayout.validate BlockFormatId.spec
  by_cases hformat : layout.blockFormatId = BlockFormatId.durablePrefix
  · simp only [hformat, if_true, true_and]
    unfold checkBlockShape validateBlockLayoutParts BlockFormatId.spec
    by_cases hzero : layout.blockSize = 0
    · simp [hzero]
    · by_cases hlarge : layout.blockSize > maxBlockSize
      · simp [hzero, hlarge]
      · simp [hzero, hlarge]
        omega
  · simp [hformat]

inductive FileType
  | file
  | dir
deriving DecidableEq, Repr

inductive PublishMode
  | replaceIfUnchanged
  | appendIfUnchanged
deriving DecidableEq, Repr

structure FilePublication where
  blocks : List CommittedBlock
  targetSize : ℕ
  expectedGeneration : ContentGeneration
  expectedFileSize : ℕ
  leaseEpoch : LeaseEpoch
  mode : PublishMode
deriving DecidableEq, Repr

structure FileCommit where
  clientId : ClientId
  callId : CallId
  leaseEpoch : LeaseEpoch
  expectedGeneration : ContentGeneration
  expectedFileSize : ℕ
  mode : PublishMode
  committedSize : ℕ
  generation : ContentGeneration
deriving DecidableEq, Repr

structure InodeAttrs where
  createTime : ℕ
  modifyTime : ℕ
deriving DecidableEq, Repr

structure FileData where
  layout : FileLayout
  len : ℕ
  generation : ContentGeneration
  blocks : List BlockId
  nextIndex : ℕ
  leaseEpoch : LeaseEpoch
  lastCommit : Option FileCommit
deriving DecidableEq, Repr

inductive InodeKind
  | file (data : FileData)
  | dir
deriving DecidableEq, Repr

structure Inode where
  inodeId : InodeId
  attrs : InodeAttrs
  kind : InodeKind
  mountId : MountId
deriving DecidableEq, Repr

def rootMountPrefix : String := "/"
def rootInodeId : InodeId := 1
def rootMountId : MountId := 1

inductive MountKind
  | internal
  | external
deriving DecidableEq, Repr

inductive DataIoPolicy
  | allow
  | forbid
deriving DecidableEq, Repr

structure MountEntry where
  mountId : MountId
  mountPrefix : String
  mountKind : MountKind
  ufsUri : Option String
  dataIoPolicy : DataIoPolicy
  mountEpoch : ℕ
  namespaceOwnerGroupName : GroupName
  rootInodeId : InodeId
deriving DecidableEq

inductive HealthStatus
  | healthy
  | degraded
  | unhealthy
deriving DecidableEq, Repr

structure WorkerInfo where
  groupName : GroupName
  workerId : WorkerId
  address : String
  workerNetProtocol : ℤ
  capacityTotal : ℕ
  capacityUsed : ℕ
  capacityAvailable : ℕ
  activeReads : ℕ
  activeWrites : ℕ
  health : HealthStatus
  lastHeartbeat : ℕ
  faultDomain : Option String
deriving DecidableEq

structure DetachedRoot where
  mountId : MountId
  detachedAtMs : ℕ
deriving DecidableEq, Repr

structure CreateFileReplayRecord where
  operationId : CreateFileOperationId
  requestDeadlineMs : ℕ
  normalizedPath : String
  parentInodeId : InodeId
  name : String
  inodeId : InodeId
  mountId : MountId
  expectedMountEpoch : ℕ
  mountRootInodeId : InodeId
  relativeComponents : List String
  leaseEpoch : LeaseEpoch
  layout : FileLayout
  generation : ContentGeneration
  expiresAtMs : ℕ
deriving DecidableEq, Repr

structure LogId where
  term : ℕ
  nodeId : ℕ
  index : ℕ
deriving DecidableEq, Repr

structure Vote where
  term : ℕ
  nodeId : ℕ
  committed : Bool
deriving DecidableEq, Repr

structure MetadataNode where
  nodeId : ℕ
  address : String
deriving DecidableEq, Repr

structure StoredMembership where
  logId : Option LogId
  configs : List (List ℕ)
  nodes : List (ℕ × MetadataNode)
deriving DecidableEq, Repr

structure AppMetadataRaftState where
  lastAppliedLogId : Option LogId
  lastPurgedLogId : Option LogId
  vote : Option Vote
  committed : Option LogId
  membership : StoredMembership
deriving DecidableEq, Repr

end Beryl
