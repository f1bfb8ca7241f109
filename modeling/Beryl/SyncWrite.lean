import Beryl.PayloadAgreement
import Beryl.ReadPath

/-!
# Answering a sync

The handler of `SyncWrite`.  Before it proposes anything it looks whether what was asked for is
already visible; then it answers from the state, without a record of the request that made it.
What the handler meets on its way (the session, the inode, the guards, the outcome of the
proposal) is a record of readings: between two of them anything may have happened.
-/

namespace Beryl

open History

structure SyncWriteArgs where
  inodeId : InodeId
  leaseEpoch : LeaseEpoch
  committedBlocks : List CommittedBlock
  targetSize : ℕ
  expectedGeneration : ContentGeneration
  expectedFileSize : ℕ
  publishMode : PublishMode
deriving DecidableEq

structure SyncWriteOutput where
  syncedSize : ℕ
  generation : Option ContentGeneration
deriving DecidableEq

inductive SessionErrorKind
  | sessionInvalid
  | sessionExpired
deriving DecidableEq, Repr

/-- An `FsFailure`: a plain one, or one that asks for a new session. -/
inductive PublishFailure
  | refused (failure : FsFailure)
  | session (kind : SessionErrorKind) (message : String) (groupName : Option GroupName)
      (mountEpoch : Option ℕ)
deriving DecidableEq

def MetadataError.display : MetadataError → String
  | .leaseFenced expected got => s!"lease fenced: expected epoch >= {expected}, got {got}"
  | .leaderChanged message => s!"leader changed: {message}"
  | .routingStale message => s!"routing stale: {message}"
  | .staleState message => s!"stale state: {message}"
  | .fullReportRequired message => s!"full report required: {message}"
  | error => (toRpcError error).message

structure SyncReadings where
  /-- `session_write_admission_failure`. -/
  admission : Option FsFailure
  /-- `get_session`. -/
  session : Option WriteSession
  /-- `read_inode` in `resolve_synced_state`. -/
  inode : MetadataResult (Option Inode)
  /-- The session of `begin_publication`. -/
  begun : Except BeginWritePublicationError WriteSession
  /-- `validate_mount_epoch`. -/
  mountHints : MountId → Except FsFailure (Option GroupName × Option ℕ)
  /-- `validate_route_epoch`. -/
  routeHint : Option GroupName → Option ℕ → Except FsFailure (Option ℕ)
  /-- `complete_sync` after a visible state. -/
  completed : Except String Unit
  /-- `validate_session`. -/
  leaseValid : Bool
  /-- `require_worker_lookup_group`. -/
  workerLookupGroup : Except FsFailure GroupName
  /-- `read_inode` in `publication_ready_targets`. -/
  readyInode : MetadataResult (Option Inode)
  /-- `wait_for_publish_ready`. -/
  waited : Except FsFailure Unit
  /-- The second `validate_mount_epoch`. -/
  mountHintsAgain : MountId → Except FsFailure (Option GroupName × Option ℕ)
  /-- The second `validate_route_epoch`. -/
  routeHintAgain : Option GroupName → Option ℕ → Except FsFailure (Option ℕ)
  /-- The second `session_write_admission_failure`. -/
  admissionAgain : Option FsFailure
  /-- `revalidate`. -/
  current : Except String WriteSession
  /-- The second `validate_session`. -/
  leaseValidAgain : Bool
  /-- `require_publish_ready`. -/
  ready : Except FsFailure Unit
  /-- `route_ctx_for_write_with_error_hints`. -/
  routed : Except FsFailure (GroupName × ℕ)
  /-- `require_publish_deadline`. -/
  deadline : Except FsFailure Unit
  proposedAtMs : ℕ
  /-- `propose_file_publication`. -/
  proposed : Command → MetadataResult ContentGeneration

def rejectWhen {ε : Type} (condition : Prop) [Decidable condition] (error : ε) : Except ε Unit :=
  if condition then .error error else .ok ()

def rejectSome {ε α : Type} (failure : Option α) (error : α → ε) : Except ε Unit :=
  match failure with
  | some found => .error (error found)
  | none => .ok ()

def orReject {ε α : Type} (value : Option α) (error : ε) : Except ε α :=
  match value with
  | some found => .ok found
  | none => .error error

/-- `resolve_synced_state`: the mount, the generation and the stored lease epoch of a file that
already shows the payload. -/
def resolveSyncedState (readInode : MetadataResult (Option Inode)) (inodeId : InodeId)
    (leaseEpoch : LeaseEpoch) (intent : CloseWriteIntent)
    (expectedGeneration : ContentGeneration) (mode : PublishMode) :
    MetadataResult (Option (MountId × ContentGeneration × LeaseEpoch)) := do
  let found ← readInode
  let inode ← orReject found (.notFound s!"inode {inodeId}")
  rejectWhen (inode.inodeId ≠ inodeId) (.internal "inode key mismatch")
  let file ← inode.file
  file.validate inodeId
  rejectWhen (file.leaseEpoch ≠ leaseEpoch ∧ checkedNext leaseEpoch ≠ some file.leaseEpoch)
    (.leaseFenced file.leaseEpoch leaseEpoch)
  let payload := intent.publication leaseEpoch expectedGeneration mode
  let isVisible ← payload.matchesVisible file
  if isVisible = true ∧ (checkedNext expectedGeneration = some file.generation ∨
      (file.generation = expectedGeneration ∧ payload.blocks = [])) then
    .ok (some (inode.mountId, file.generation, file.leaseEpoch))
  else if file.generation ≠ expectedGeneration then .error (.again "content generation changed")
  else .ok none

structure PublishReadyTarget where
  target : LocatedBlock
  effectiveLen : ℕ
deriving DecidableEq

def readyTarget (session : WriteSession) (block : CommittedBlock) :
    MetadataResult PublishReadyTarget := do
  let target ← orReject (session.issuedTarget block.blockId)
    (.invalidArgument "block was not issued to this writer")
  rejectWhen (target.fencingToken.epoch ≠ session.leaseEpoch)
    (.invalidArgument "target writer epoch mismatch")
  return ⟨target, block.len⟩

def publicationReadyTargets (readInode : MetadataResult (Option Inode)) (session : WriteSession)
    (blocks : List CommittedBlock) (expectedGeneration : ContentGeneration) :
    MetadataResult (List PublishReadyTarget) := do
  let found ← readInode
  let inode ← orReject found (.notFound "inode missing")
  let file ← inode.file
  rejectWhen (file.generation ≠ expectedGeneration) (.staleState "content generation changed")
  blocks.mapM (readyTarget session)

section Handler

variable (ctx : RequestContext) (clientId : ClientId) (readings : SyncReadings)

def sessionInvalid (message : String) (groupName : Option GroupName) (mountEpoch : Option ℕ) :
    PublishFailure :=
  .session .sessionInvalid message (groupName <|> ctx.groupName) mountEpoch

def sessionExpired (message : String) (groupName : Option GroupName) (mountEpoch : Option ℕ) :
    PublishFailure :=
  .session .sessionExpired message (groupName <|> ctx.groupName) mountEpoch

def failureFromError (error : MetadataError) (groupName : Option GroupName)
    (mountEpoch routeEpoch : Option ℕ) : PublishFailure :=
  .refused (fsFailureFromMetadataError ctx error groupName mountEpoch routeEpoch)

def preconditionMismatch : PublishFailure :=
  sessionInvalid ctx "SyncWrite publish precondition does not match the active session" none none

def orRefused {α : Type} (result : Except FsFailure α) : Except PublishFailure α :=
  result.mapError .refused

def activePublishSession (args : SyncWriteArgs) : Except PublishFailure (Option WriteSession) :=
  match readings.session with
  | none => .ok none
  | some session => do
      rejectWhen (session.openClientId ≠ clientId)
        (sessionInvalid ctx s!"SyncWrite client does not own inode_id={args.inodeId}" none none)
      rejectWhen (session.leaseEpoch ≠ args.leaseEpoch) (preconditionMismatch ctx)
      return some session

def beginFailure (args : SyncWriteArgs) : BeginWritePublicationError → PublishFailure
  | .session message =>
    sessionInvalid ctx s!"SyncWrite write session is no longer current: {message}" none none
  | .allocateBlockPending =>
    failureFromError ctx (.again (s!"SyncWrite cannot freeze inode_id={args.inodeId}" ++
      " while AllocateBlock is pending")) none none none
  | .publicationInProgress =>
    failureFromError ctx (.again ("another file publication is already in progress for " ++
      s!"inode_id={args.inodeId}")) none none none
  | .publicationIdExhausted =>
    failureFromError ctx (.internal "write publication identity exhausted") none none none

def beginWritePublication (args : SyncWriteArgs) (publishMode : PublishMode) :
    Except PublishFailure WriteSession := do
  let session ← readings.begun.mapError (beginFailure ctx args)
  rejectWhen (session.openClientId ≠ clientId ∨ publishModeForSession session ≠ publishMode)
    (preconditionMismatch ctx)
  return session

/-- The publication that an active session begins although there is nothing to propose.  The
mode that is compared with the session is the session's own. -/
def beginSyncedPublication (args : SyncWriteArgs) :
    Option WriteSession → Except PublishFailure (Option WriteSession)
  | none => .ok none
  | some session => do
      let begun ← beginWritePublication ctx clientId readings args (publishModeForSession session)
      return some begun

def answerSyncedState (args : SyncWriteArgs) (activeSession : Option WriteSession)
    (mountId : MountId) (generation : ContentGeneration) :
    Except PublishFailure (FsSuccess SyncWriteOutput) := do
  let publication ← beginSyncedPublication ctx clientId readings args activeSession
  rejectWhen (∃ session ∈ publication, session.generation ≠ args.expectedGeneration ∧
      session.generation ≠ generation)
    (sessionInvalid ctx "SyncWrite content generation does not match the active session" none none)
  let (groupName, mountEpoch) ← orRefused (readings.mountHints mountId)
  let routeEpoch ← orRefused (readings.routeHint groupName mountEpoch)
  (if publication.isSome then readings.completed else .ok ()).mapError fun message =>
    failureFromError ctx (.internal message) groupName mountEpoch none
  return ⟨⟨args.targetSize, some generation⟩, groupName, mountEpoch, routeEpoch⟩

def revalidatePublishSession (expected : WriteSession) (publishMode : PublishMode) :
    Except PublishFailure WriteSession := do
  rejectSome readings.admissionAgain .refused
  let current ← readings.current.mapError fun message =>
    sessionInvalid ctx ("SyncWrite write publication changed while waiting " ++
      s!"for Ready block reports: {message}") none none
  rejectWhen (current.openClientId ≠ clientId ∨ publishModeForSession current ≠ publishMode)
    (preconditionMismatch ctx)
  rejectWhen (current.inodeId ≠ expected.inodeId ∨ current.mountId ≠ expected.mountId ∨
      current.baseSize ≠ expected.baseSize ∨ current.generation ≠ expected.generation)
    (sessionInvalid ctx "SyncWrite write session changed while waiting for Ready block reports"
      none none)
  rejectWhen (readings.leaseValidAgain = false)
    (sessionExpired ctx "SyncWrite lease expired while waiting for Ready block reports" none none)
  return current

structure AdmittedSync where
  session : WriteSession
  blocks : List CommittedBlock
  lookupGroup : GroupName
  groupName : Option GroupName
  mountEpoch : Option ℕ
  routeEpoch : Option ℕ

/-- What is checked of the request and its payload before the wait. -/
def admitSync (args : SyncWriteArgs) (intent : CloseWriteIntent)
    (activeSession : Option WriteSession) : Except PublishFailure AdmittedSync := do
  let _ ← orReject activeSession
    (sessionInvalid ctx s!"write session not found for inode_id={args.inodeId}" none none)
  let session ← beginWritePublication ctx clientId readings args args.publishMode
  rejectWhen (session.generation ≠ args.expectedGeneration) (preconditionMismatch ctx)
  let (groupName, mountEpoch) ← orRefused (readings.mountHints session.mountId)
  let routeEpoch ← orRefused (readings.routeHint groupName mountEpoch)
  rejectSome (intent.committedBlocks.find? fun block => block.blockId.inodeId ≠ session.inodeId)
    fun block => failureFromError ctx (.invalidArgument
      (s!"SyncWrite committed block inode_id {block.blockId.inodeId} does not match " ++
        s!"write handle inode_id {session.inodeId}")) groupName mountEpoch routeEpoch
  rejectWhen (args.leaseEpoch ≠ session.leaseEpoch)
    (sessionInvalid ctx (s!"write handle epoch mismatch for inode_id={args.inodeId}: " ++
      s!"expected {session.leaseEpoch}, got {args.leaseEpoch}") groupName mountEpoch)
  rejectWhen (readings.leaseValid = false)
    (sessionExpired ctx s!"lease validation rejected for inode_id={args.inodeId}" groupName
      mountEpoch)
  let invalid := fun error : MetadataError =>
    failureFromError ctx (.invalidArgument error.display) groupName mountEpoch none
  let blocks ← (validateCommittedBlocks intent session).mapError invalid
  let lookupGroup ← orRefused readings.workerLookupGroup
  let _ ← (publicationReadyTargets readings.readyInode session intent.committedBlocks
    args.expectedGeneration).mapError invalid
  return { session, blocks, lookupGroup, groupName, mountEpoch, routeEpoch }

/-- The wait for the targets, the checks that are repeated after it, and the proposal. -/
def publishSync (args : SyncWriteArgs) (intent : CloseWriteIntent) (admitted : AdmittedSync) :
    Except PublishFailure (FsSuccess SyncWriteOutput) := do
  orRefused readings.waited
  let (groupName, mountEpoch) ← orRefused (readings.mountHintsAgain admitted.session.mountId)
  rejectWhen (groupName ≠ some admitted.lookupGroup ∨ mountEpoch ≠ admitted.mountEpoch)
    (failureFromError ctx (.staleState "SyncWrite mount authority changed during Ready wait")
      groupName mountEpoch admitted.routeEpoch)
  let routeEpoch ← orRefused (readings.routeHintAgain admitted.groupName admitted.mountEpoch)
  let session ← revalidatePublishSession ctx clientId readings admitted.session args.publishMode
  orRefused readings.ready
  let (routedGroup, routedEpoch) ← orRefused readings.routed
  orRefused readings.deadline
  let publication := { intent.publication args.leaseEpoch args.expectedGeneration
    args.publishMode with blocks := admitted.blocks }
  let generation ← (readings.proposed
    (.publishFile readings.proposedAtMs session.inodeId publication)).mapError fun error =>
      failureFromError ctx error (some routedGroup) (some routedEpoch) none
  return ⟨⟨intent.finalSize, some generation⟩, some routedGroup, some routedEpoch, routeEpoch⟩

def syncWriteSession (args : SyncWriteArgs) (intent : CloseWriteIntent) :
    Except PublishFailure (FsSuccess SyncWriteOutput) := do
  let activeSession ← activePublishSession ctx clientId readings args
  let resolved ← (resolveSyncedState readings.inode args.inodeId args.leaseEpoch intent
    args.expectedGeneration args.publishMode).mapError fun error =>
      failureFromError ctx error none none none
  match resolved with
  | some (mountId, generation, _) =>
    answerSyncedState ctx clientId readings args activeSession mountId generation
  | none =>
    let admitted ← admitSync ctx clientId readings args intent activeSession
    publishSync ctx clientId readings args intent admitted

def syncWrite (args : SyncWriteArgs) : Except PublishFailure (FsSuccess SyncWriteOutput) := do
  rejectSome readings.admission .refused
  rejectWhen (∃ block ∈ args.committedBlocks, block.blockId.inodeId ≠ args.inodeId)
    (failureFromError ctx
      (.invalidArgument "committed block inode_id does not match request") none none none)
  syncWriteSession ctx clientId readings args
    ⟨args.committedBlocks, args.targetSize, args.expectedFileSize⟩

end Handler

end Beryl
