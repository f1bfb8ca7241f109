import Beryl.ReverseIndex
import Beryl.SessionRegistry

/-!
# The worker manager

Registrations, heartbeats and block reports of one metadata process.  A worker run reports
its blocks with one full baseline, sent in batches, and then with deltas.  A baseline is
staged until its last batch has arrived; only an active baseline is visible, through the
index of block locations.
-/

namespace Beryl

/-! ## Identities -/

instance : LinearOrder BlockId :=
  LinearOrder.lift' (fun block : BlockId => toLex (block.inodeId, block.index)) <| by
    rintro ⟨inodeId, index⟩ ⟨inodeId', index'⟩ h
    cases h
    rfl

def BlockId.display (blockId : BlockId) : String := s!"{blockId.inodeId}:{blockId.index}"

def hexDigits : ℕ → ℕ → String
  | 0, _ => ""
  | width + 1, value =>
    hexDigits width (value / 16) ++ String.singleton (Nat.digitChar (value % 16))

def displayRunId (run : WorkerRunId) : String :=
  hexDigits 8 (run / 2 ^ 96) ++ "-" ++ hexDigits 4 (run / 2 ^ 80) ++ "-" ++
    hexDigits 4 (run / 2 ^ 64) ++ "-" ++ hexDigits 4 (run / 2 ^ 48) ++ "-" ++ hexDigits 12 run

structure BlockLocationKey where
  groupName : GroupName
  blockId : BlockId
deriving DecidableEq

structure WorkerRegistrationKey where
  groupName : GroupName
  workerId : WorkerId
deriving DecidableEq

instance : LinearOrder WorkerRegistrationKey :=
  LinearOrder.lift' (fun key : WorkerRegistrationKey => toLex (key.groupName.asStr, key.workerId))
    <| by
    rintro ⟨⟨name, valid⟩, workerId⟩ ⟨⟨name', valid'⟩, workerId'⟩ h
    cases h
    rfl

abbrev BlockLocations := ReverseIndex BlockLocationKey WorkerRegistrationKey

/-! ## State -/

structure WorkerDescriptor where
  groupName : GroupName
  workerId : WorkerId
  address : String
  workerNetProtocol : ℤ
  faultDomain : Option String
deriving DecidableEq

structure TierFree where
  tier : Tier
  freeBytes : ℕ
deriving DecidableEq

/-- `lastSeenAt` is the monotonic clock in nanoseconds, `lastSeenMs` the wall clock. -/
structure WorkerRuntime where
  workerRunId : WorkerRunId
  heartbeatSeq : ℕ
  lastSeenAt : ℕ
  lastSeenMs : ℕ
  tierFree : List TierFree
deriving DecidableEq

structure WorkerRegistrationState where
  groupName : GroupName
  workerId : WorkerId
  workerRunId : WorkerRunId
  address : String
  workerNetProtocol : ℤ
  faultDomain : Option String
deriving DecidableEq

structure WorkerLiveState where
  groupName : GroupName
  workerId : WorkerId
  workerRunId : WorkerRunId
  heartbeatSeq : ℕ
  lastSeenMs : ℕ
deriving DecidableEq

inductive HeartbeatRejectionReason
  | needRegister
  | workerRunMismatch
deriving DecidableEq

structure HeartbeatRejectionState where
  workerRunId : WorkerRunId
  reason : HeartbeatRejectionReason
deriving DecidableEq

inductive BlockReportBlockState
  | ready
  | corrupt
  | deleting
deriving DecidableEq

structure BlockReportBlock where
  tier : Option Tier
  blockId : BlockId
  leaseEpoch : ℕ
  blockState : BlockReportBlockState
  effectiveLen : ℕ
deriving DecidableEq

inductive BlockReportChange
  | upsert (block : BlockReportBlock)
  | remove (blockId : BlockId)
deriving DecidableEq

def BlockReportChange.blockId : BlockReportChange → BlockId
  | upsert block => block.blockId
  | remove blockId => blockId

structure BlockReportApplyResult where
  addedBlocks : List BlockId := []
  removedBlocks : List BlockId := []
  nextBatchSeq : ℕ := 0
  baselinePublished : Bool := false
deriving DecidableEq

abbrev ReportedBlocks := HashMap BlockId BlockReportBlock

structure ActiveBlockReport where
  baselineSeq : ℕ
  blocks : ReportedBlocks
  readyBlocks : OrderedSet BlockId
  nextDeltaBatchSeq : ℕ

structure StagingFullBlockReport where
  baselineSeq : ℕ
  nextBatchSeq : ℕ
  blocks : ReportedBlocks

structure WorkerBlockReportRuntime where
  workerRunId : WorkerRunId
  baselineHighWatermark : Option ℕ
  active : Option ActiveBlockReport
  staging : Option StagingFullBlockReport

structure WorkerManager where
  descriptors : HashMap WorkerRegistrationKey WorkerDescriptor
  registrations : HashMap WorkerRegistrationKey WorkerRegistrationState
  runtime : HashMap WorkerRegistrationKey WorkerRuntime
  heartbeatRejections : HashMap WorkerRegistrationKey HeartbeatRejectionState
  reports : OrderedTable WorkerRegistrationKey WorkerBlockReportRuntime
  locations : BlockLocations
  publicationObservation : ℕ
  heartbeatTimeoutMs : ℕ

/-- A call of the manager, which keeps what it has changed when it fails. -/
abbrev WorkerM (α : Type) := Transaction WorkerManager (Exit MetadataError) α

namespace WorkerManager

open Transaction

def new (heartbeatTimeoutMs : ℕ) : WorkerManager where
  descriptors := ∅
  registrations := ∅
  runtime := ∅
  heartbeatRejections := ∅
  reports := .empty
  locations := ∅
  publicationObservation := 0
  heartbeatTimeoutMs := heartbeatTimeoutMs

def refuseIf (condition : Prop) [Decidable condition] (error : MetadataError) : WorkerM Unit :=
  failIf condition (.refused error)

def notifyPublicationObservationChanged : WorkerM Unit :=
  update fun manager =>
    { manager with publicationObservation := (manager.publicationObservation + 1) % 2 ^ 64 }

def live (manager : WorkerManager) (now : ℕ) (runtime : WorkerRuntime) : Bool :=
  now - runtime.lastSeenAt < manager.heartbeatTimeoutMs * 1000000

def isWorkerLive (manager : WorkerManager) (key : WorkerRegistrationKey) (now : ℕ) : Bool :=
  (manager.runtime.lookup key).any (manager.live now)

def hasRegisteredRun (manager : WorkerManager) (key : WorkerRegistrationKey)
    (workerRunId : WorkerRunId) : Bool :=
  (manager.registrations.lookup key).any fun registration =>
    registration.workerRunId = workerRunId

/-! ## Registrations and heartbeats -/

def resetWorkerSoftState : WorkerM Unit := do
  update fun manager =>
    { manager with
      registrations := ∅
      reports := .empty
      locations := ∅
      runtime := ∅
      heartbeatRejections := ∅ }
  notifyPublicationObservationChanged

def upsertDescriptor (descriptor : WorkerDescriptor) : WorkerM Unit := do
  update fun manager =>
    { manager with
      descriptors := manager.descriptors.insert
        ⟨descriptor.groupName, descriptor.workerId⟩ descriptor }
  notifyPublicationObservationChanged

/-- Persisted descriptors are loaded; no run is reconstructed from them. -/
def loadRegisteredWorkers (workers : List WorkerInfo) : WorkerM Unit := do
  update fun manager =>
    { manager with
      descriptors := workers.foldl (fun descriptors worker =>
        descriptors.insert ⟨worker.groupName, worker.workerId⟩
          ⟨worker.groupName, worker.workerId, worker.address, worker.workerNetProtocol,
            worker.faultDomain⟩) ∅
      registrations := ∅
      reports := .empty
      locations := ∅
      runtime := ∅
      heartbeatRejections := ∅ }
  notifyPublicationObservationChanged

def workerNetProtocolLabel (workerNetProtocol : ℤ) : String :=
  if workerNetProtocol = 1 then "grpc" else "unknown"

def validateSameRunDescriptor (key : WorkerRegistrationKey) (existing : WorkerRegistrationState)
    (address : String) (workerNetProtocol : ℤ) : MetadataResult Unit :=
  if existing.address = address ∧ existing.workerNetProtocol = workerNetProtocol then .ok ()
  else
    let registered := workerNetProtocolLabel existing.workerNetProtocol
    let requested := workerNetProtocolLabel workerNetProtocol
    let run := displayRunId existing.workerRunId
    .error (.invalidArgument
      s!"worker descriptor mismatch for group_name={key.groupName.asStr}, worker_id={key.workerId}, worker_run_id={run}: registered endpoint {existing.address} protocol {registered}, requested endpoint {address} protocol {requested}")

/-- The workers whose heartbeat has timed out are forgotten, and returned. -/
def expireLiveness (now : ℕ) : WorkerM (Finset WorkerRegistrationKey) := do
  let manager ← current
  let expired := (manager.runtime.filterValues fun runtime => !manager.live now runtime).keys
  update fun manager =>
    { manager with runtime := manager.runtime.filterValues (manager.live now) }
  if expired = ∅ then pure expired
  else do
    notifyPublicationObservationChanged
    pure expired

def validateWorkerRegistrationPreflight (key : WorkerRegistrationKey)
    (workerRunId : WorkerRunId) (address : String) (workerNetProtocol : ℤ)
    (expireAt liveAt : ℕ) : WorkerM Unit := do
  let _ ← expireLiveness expireAt
  let manager ← current
  match manager.registrations.lookup key with
  | none => pure ()
  | some existing =>
    if existing.workerRunId = workerRunId then
      match validateSameRunDescriptor key existing address workerNetProtocol with
      | .error error => fail (.refused error)
      | .ok () => pure ()
    else
      let registered := workerNetProtocolLabel existing.workerNetProtocol
      let requested := workerNetProtocolLabel workerNetProtocol
      let run := displayRunId existing.workerRunId
      let rejected := displayRunId workerRunId
      refuseIf ((existing.address ≠ address ∨ existing.workerNetProtocol ≠ workerNetProtocol) ∧
          manager.isWorkerLive key liveAt = true)
        (.activeWorkerConflict
          s!"worker_id {key.workerId} in group_name {key.groupName.asStr} is live at {existing.address} protocol {registered} with worker_run_id {run}, rejected registration from {address} protocol {requested} with worker_run_id {rejected}")

def validateWorkerRegistrationForApply (manager : WorkerManager) (key : WorkerRegistrationKey)
    (workerRunId : WorkerRunId) (address : String) (workerNetProtocol : ℤ) :
    MetadataResult Unit :=
  if key.workerId = 0 then
    .error (.invalidArgument "worker_id must be non-zero for registration")
  else
    match manager.registrations.lookup key with
    | none => .ok ()
    | some existing =>
      if existing.groupName ≠ key.groupName ∨ existing.workerId ≠ key.workerId then
        .error (.internal
          s!"worker registration key mismatch for group_name={key.groupName.asStr}, worker_id={key.workerId}")
      else if existing.workerRunId = workerRunId then
        validateSameRunDescriptor key existing address workerNetProtocol
      else .ok ()

/-! ## The index of locations -/

def locationKeys (key : WorkerRegistrationKey) (blockIds : List BlockId) :
    List BlockLocationKey :=
  blockIds.map (BlockLocationKey.mk key.groupName)

def addWorkerReadyLocations (locations : BlockLocations) (key : WorkerRegistrationKey)
    (blockIds : List BlockId) : BlockLocations :=
  locations.listAll key (locationKeys key blockIds)

def removeWorkerReadyLocations (locations : BlockLocations) (key : WorkerRegistrationKey)
    (blockIds : List BlockId) : BlockLocations :=
  locations.unlistAll key (locationKeys key blockIds)

def readyBlockList (report : WorkerBlockReportRuntime) : List BlockId :=
  match report.active with
  | none => []
  | some active => OrderedSet.toList active.readyBlocks

def dropReport (locations : BlockLocations) (key : WorkerRegistrationKey)
    (report : WorkerBlockReportRuntime) : BlockLocations :=
  match report.active with
  | none => locations
  | some active => removeWorkerReadyLocations locations key (OrderedSet.toList active.readyBlocks)

def removeWorkerReport (key : WorkerRegistrationKey) :
    WorkerM (Option WorkerBlockReportRuntime) := do
  let manager ← current
  match manager.reports.get key with
  | none => pure none
  | some report => do
      update fun manager =>
        { manager with
          reports := manager.reports.delete key
          locations := dropReport manager.locations key report }
      pure (some report)

def registerWorkerRun (groupName : GroupName) (workerId : WorkerId) (address : String)
    (workerNetProtocol : ℤ) (workerRunId : WorkerRunId) (faultDomain : Option String) :
    WorkerM Unit := do
  let key : WorkerRegistrationKey := ⟨groupName, workerId⟩
  let manager ← current
  match validateWorkerRegistrationForApply manager key workerRunId address workerNetProtocol with
  | .error error => fail (.refused error)
  | .ok () => do
      upsertDescriptor ⟨groupName, workerId, address, workerNetProtocol, faultDomain⟩
      let manager ← current
      let sameRegisteredRun := manager.hasRegisteredRun key workerRunId
      update fun manager =>
        { manager with
          registrations := manager.registrations.insert key
            ⟨groupName, workerId, workerRunId, address, workerNetProtocol, faultDomain⟩ }
      if sameRegisteredRun then
        update fun manager =>
          { manager with heartbeatRejections := manager.heartbeatRejections.erase key }
      else do
        let _ ← removeWorkerReport key
        update fun manager =>
          { manager with
            heartbeatRejections := manager.heartbeatRejections.erase key
            runtime := manager.runtime.erase key }
      notifyPublicationObservationChanged

def removeDeadWorker (groupName : GroupName) (workerId : WorkerId) :
    WorkerM (Bool × List BlockId) := do
  let key : WorkerRegistrationKey := ⟨groupName, workerId⟩
  let manager ← current
  let registrationRemoved := (manager.registrations.lookup key).isSome
  update fun manager => { manager with registrations := manager.registrations.erase key }
  let removedReport ← removeWorkerReport key
  let runtimeRemoved := (manager.runtime.lookup key).isSome
  update fun manager => { manager with runtime := manager.runtime.erase key }
  let affectedBlocks := (removedReport.map readyBlockList).getD []
  let removed := registrationRemoved || removedReport.isSome || runtimeRemoved
  if removed then do
    notifyPublicationObservationChanged
    pure (removed, affectedBlocks)
  else pure (removed, affectedBlocks)

def markHeartbeatRejectionIfChanged (key : WorkerRegistrationKey) (workerRunId : WorkerRunId)
    (reason : HeartbeatRejectionReason) : WorkerM Bool := do
  let manager ← current
  update fun manager =>
    { manager with
      heartbeatRejections := manager.heartbeatRejections.insert key ⟨workerRunId, reason⟩ }
  pure (manager.heartbeatRejections.lookup key ≠ some ⟨workerRunId, reason⟩)

def runMismatch (key : WorkerRegistrationKey) : MetadataError :=
  .staleState s!"worker_run_id mismatch for group_name={key.groupName.asStr}, worker_id={key.workerId}"

def recordHeartbeatWithTierFree (groupName : GroupName) (workerId : WorkerId)
    (workerRunId : WorkerRunId) (heartbeatSeq : ℕ) (advertisedEndpoint : String)
    (workerNetProtocol : ℤ) (tierFree : List TierFree) (expireAt now nowMs : ℕ) :
    WorkerM WorkerLiveState := do
  let _ ← expireLiveness expireAt
  let key : WorkerRegistrationKey := ⟨groupName, workerId⟩
  let manager ← current
  let descriptor ← okOr (manager.descriptors.lookup key) (.refused (.notFound
    s!"worker descriptor not found for group_name={groupName.asStr}, worker_id={workerId}"))
  let registration ← okOr (manager.registrations.lookup key) (.refused (.notFound
    s!"live worker registration not found for group_name={groupName.asStr}, worker_id={workerId}"))
  refuseIf (registration.workerRunId ≠ workerRunId) (runMismatch key)
  refuseIf (descriptor.address ≠ advertisedEndpoint ∨
      descriptor.workerNetProtocol ≠ workerNetProtocol)
    (.invalidArgument
      s!"worker descriptor mismatch for group_name={groupName.asStr}, worker_id={workerId}")
  -- a repeated sequence number only renews the lease
  let accepted : WorkerRuntime := match manager.runtime.lookup key with
    | some existing =>
      if heartbeatSeq ≤ existing.heartbeatSeq then
        { existing with lastSeenAt := now, lastSeenMs := nowMs, workerRunId := workerRunId }
      else ⟨workerRunId, heartbeatSeq, now, nowMs, tierFree⟩
    | none => ⟨workerRunId, heartbeatSeq, now, nowMs, tierFree⟩
  update fun manager =>
    { manager with
      runtime := manager.runtime.insert key accepted
      heartbeatRejections := manager.heartbeatRejections.erase key }
  notifyPublicationObservationChanged
  pure ⟨groupName, workerId, workerRunId, accepted.heartbeatSeq, accepted.lastSeenMs⟩

/-! ## Block reports -/

def validateReportSource (key : WorkerRegistrationKey) (workerRunId : WorkerRunId)
    (expireAt liveAt : ℕ) : WorkerM Unit := do
  let _ ← expireLiveness expireAt
  let manager ← current
  let registration ← okOr (manager.registrations.lookup key) (.refused (.notFound
    s!"worker not registered for group_name={key.groupName.asStr}, worker_id={key.workerId}"))
  refuseIf (registration.workerRunId ≠ workerRunId) (runMismatch key)
  refuseIf (manager.isWorkerLive key liveAt = false) (.notFound
    s!"worker heartbeat readiness lease not found for group_name={key.groupName.asStr}, worker_id={key.workerId}")

def readyBlockIds (blocks : ReportedBlocks) : OrderedSet BlockId :=
  OrderedSet.ofMultiset ((blocks.entries.filter fun entry =>
    entry.2.blockState = .ready).map fun entry => entry.2.blockId)

def putReport (key : WorkerRegistrationKey) (report : WorkerBlockReportRuntime) : WorkerM Unit :=
  update fun manager => { manager with reports := manager.reports.put key report }

/-- The first block of a batch that repeats a block of the batch or of the baseline. -/
def duplicateBlock (staged : ReportedBlocks) : List BlockId → List BlockReportBlock → Option BlockId
  | _, [] => none
  | seen, block :: blocks =>
    if block.blockId ∈ seen ∨ (staged.lookup block.blockId).isSome then some block.blockId
    else duplicateBlock staged (block.blockId :: seen) blocks

def stageBlocks (staged : ReportedBlocks) (blocks : List BlockReportBlock) : ReportedBlocks :=
  blocks.foldl (fun staged block => staged.insert block.blockId block) staged

/-- A newer baseline invalidates the active one before its first batch is staged. -/
def startBaseline (key : WorkerRegistrationKey) (report : WorkerBlockReportRuntime)
    (baselineSeq batchSeq : ℕ) : WorkerM (WorkerBlockReportRuntime × List BlockId) := do
  refuseIf (batchSeq ≠ 0) (.fullReportRequired
    s!"full report required from batch_seq 0 for group_name={key.groupName.asStr}, worker_id={key.workerId}")
  let removedBlocks := readyBlockList report
  let started : WorkerBlockReportRuntime :=
    { report with
      active := none
      staging := some ⟨baselineSeq, 0, ∅⟩
      baselineHighWatermark := some baselineSeq }
  update fun manager => { manager with locations := dropReport manager.locations key report }
  putReport key started
  pure (started, removedBlocks)

def publishBaseline (key : WorkerRegistrationKey) (report : WorkerBlockReportRuntime)
    (baselineSeq : ℕ) (blocks : ReportedBlocks) (removedBlocks : List BlockId) :
    WorkerM BlockReportApplyResult := do
  let readyBlocks := readyBlockIds blocks
  update fun manager =>
    { manager with
      locations := addWorkerReadyLocations manager.locations key
        (OrderedSet.toList readyBlocks) }
  putReport key
    { report with staging := none, active := some ⟨baselineSeq, blocks, readyBlocks, 0⟩ }
  notifyPublicationObservationChanged
  pure
    { addedBlocks := OrderedSet.toList readyBlocks
      removedBlocks := removedBlocks
      baselinePublished := true }

def acceptBatch (key : WorkerRegistrationKey) (report : WorkerBlockReportRuntime)
    (baselineSeq batchSeq : ℕ) (finalBatch : Bool) (blocks : List BlockReportBlock)
    (removedBlocks : List BlockId) : WorkerM BlockReportApplyResult := do
  let staging ← okOr report.staging (.panicked "full staging must exist")
  if batchSeq < staging.nextBatchSeq then
    pure { removedBlocks := removedBlocks, nextBatchSeq := staging.nextBatchSeq }
  else if batchSeq > staging.nextBatchSeq then do
    putReport key { report with staging := none }
    fail (.refused (.fullReportRequired
      s!"full report required after batch gap: expected {staging.nextBatchSeq}, got {batchSeq} for group_name={key.groupName.asStr}, worker_id={key.workerId}"))
  else
    match duplicateBlock staging.blocks [] blocks with
    | some blockId =>
      let id := blockId.display
      fail (.refused (.invalidArgument
        s!"full block report contains duplicate block_id {id}"))
    | none => do
        let staged := stageBlocks staging.blocks blocks
        match checkedNext batchSeq with
        | none => do
            putReport key { report with staging := some { staging with blocks := staged } }
            fail (.refused (.invalidArgument "full block report batch_seq overflow"))
        | some nextBatchSeq =>
          if finalBatch then publishBaseline key report baselineSeq staged removedBlocks
          else do
            putReport key
              { report with staging := some ⟨staging.baselineSeq, nextBatchSeq, staged⟩ }
            if removedBlocks = [] then
              pure { removedBlocks := removedBlocks, nextBatchSeq := nextBatchSeq }
            else do
              notifyPublicationObservationChanged
              pure { removedBlocks := removedBlocks, nextBatchSeq := nextBatchSeq }

def newReport (workerRunId : WorkerRunId) : WorkerBlockReportRuntime :=
  ⟨workerRunId, none, none, none⟩

def receiveFullBlockReport (groupName : GroupName) (workerId : WorkerId)
    (workerRunId : WorkerRunId) (baselineSeq batchSeq : ℕ) (finalBatch : Bool)
    (blocks : List BlockReportBlock) (expireAt liveAt : ℕ) :
    WorkerM BlockReportApplyResult := do
  let key : WorkerRegistrationKey := ⟨groupName, workerId⟩
  validateReportSource key workerRunId expireAt liveAt
  let manager ← current
  refuseIf (manager.hasRegisteredRun key workerRunId = false) (runMismatch key)
  let report := (manager.reports.get key).getD (newReport workerRunId)
  putReport key report
  refuseIf (report.workerRunId ≠ workerRunId) (runMismatch key)
  if report.active.any (fun active => active.baselineSeq = baselineSeq) then
    pure { baselinePublished := true }
  else
    let continuingStaging := report.staging.any fun staging => staging.baselineSeq = baselineSeq
    match report.baselineHighWatermark with
    | some highWatermark =>
      if continuingStaging = false ∧ baselineSeq ≤ highWatermark then
        fail (.refused (.fullReportRequired
          s!"full report required: stale baseline_seq {baselineSeq} for group_name={groupName.asStr}, worker_id={workerId}, high watermark {highWatermark}"))
      else receiveBatch key report continuingStaging
    | none => receiveBatch key report continuingStaging
where
  receiveBatch (key : WorkerRegistrationKey) (report : WorkerBlockReportRuntime)
      (continuingStaging : Bool) : WorkerM BlockReportApplyResult :=
    if continuingStaging then acceptBatch key report baselineSeq batchSeq finalBatch blocks []
    else do
      let (started, removedBlocks) ← startBaseline key report baselineSeq batchSeq
      acceptBatch key started baselineSeq batchSeq finalBatch blocks removedBlocks

def duplicateChange : List BlockId → List BlockReportChange → Option BlockId
  | _, [] => none
  | seen, change :: changes =>
    if change.blockId ∈ seen then some change.blockId
    else duplicateChange (change.blockId :: seen) changes

structure DeltaProgress where
  blocks : ReportedBlocks
  readyBlocks : OrderedSet BlockId
  locations : BlockLocations
  addedBlocks : List BlockId
  removedBlocks : List BlockId

def applyToBlocks (change : BlockReportChange) (blocks : ReportedBlocks) :
    ReportedBlocks :=
  match change with
  | .upsert block => blocks.insert block.blockId block
  | .remove blockId => blocks.erase blockId

def isReady (blocks : ReportedBlocks) (blockId : BlockId) : Bool :=
  (blocks.lookup blockId).any fun block => block.blockState = .ready

def applyChange (key : WorkerRegistrationKey) (progress : DeltaProgress)
    (change : BlockReportChange) : DeltaProgress :=
  let blockId := change.blockId
  let wasReady : Bool := blockId ∈ progress.readyBlocks
  let blocks := applyToBlocks change progress.blocks
  match wasReady, isReady blocks blockId with
  | false, true =>
    { blocks := blocks
      readyBlocks := OrderedSet.add progress.readyBlocks blockId
      locations := addWorkerReadyLocations progress.locations key [blockId]
      addedBlocks := progress.addedBlocks ++ [blockId]
      removedBlocks := progress.removedBlocks }
  | true, false =>
    { blocks := blocks
      readyBlocks := OrderedSet.remove progress.readyBlocks blockId
      locations := removeWorkerReadyLocations progress.locations key [blockId]
      addedBlocks := progress.addedBlocks
      removedBlocks := progress.removedBlocks ++ [blockId] }
  | _, _ => { progress with blocks := blocks }

def invalidateActive (key : WorkerRegistrationKey) (report : WorkerBlockReportRuntime)
    (error : MetadataError) : WorkerM BlockReportApplyResult := do
  update fun manager => { manager with locations := dropReport manager.locations key report }
  putReport key { report with active := none }
  notifyPublicationObservationChanged
  fail (.refused error)

def acceptDelta (key : WorkerRegistrationKey) (report : WorkerBlockReportRuntime)
    (active : ActiveBlockReport) (nextBatchSeq : ℕ) (changes : List BlockReportChange) :
    WorkerM BlockReportApplyResult :=
  match duplicateChange [] changes with
  | some blockId =>
    let id := blockId.display
    fail (.refused (.invalidArgument s!"delta block report contains duplicate block_id {id}"))
  | none => do
      let manager ← current
      let progress := changes.foldl (applyChange key)
        ⟨active.blocks, active.readyBlocks, manager.locations, [], []⟩
      update fun manager => { manager with locations := progress.locations }
      putReport key
        { report with
          active := some ⟨active.baselineSeq, progress.blocks, progress.readyBlocks,
            nextBatchSeq⟩ }
      notifyPublicationObservationChanged
      pure
        { addedBlocks := progress.addedBlocks
          removedBlocks := progress.removedBlocks
          nextBatchSeq := nextBatchSeq }

def applyDeltaBlockReport (groupName : GroupName) (workerId : WorkerId)
    (workerRunId : WorkerRunId) (baselineSeq batchSeq : ℕ) (changes : List BlockReportChange)
    (expireAt liveAt : ℕ) : WorkerM BlockReportApplyResult := do
  let key : WorkerRegistrationKey := ⟨groupName, workerId⟩
  validateReportSource key workerRunId expireAt liveAt
  let manager ← current
  refuseIf (manager.hasRegisteredRun key workerRunId = false) (runMismatch key)
  let report ← okOr (manager.reports.get key) (.refused (.fullReportRequired
    s!"full report required before delta for group_name={groupName.asStr}, worker_id={workerId}"))
  refuseIf (report.workerRunId ≠ workerRunId) (runMismatch key)
  let active ← okOr report.active (.refused (.fullReportRequired
    s!"full report required for current baseline: group_name={groupName.asStr}, worker_id={workerId}"))
  let otherBaseline : MetadataError := .fullReportRequired
    s!"full report required for baseline_seq {baselineSeq}: group_name={groupName.asStr}, worker_id={workerId}, current {active.baselineSeq}"
  if baselineSeq > active.baselineSeq then invalidateActive key report otherBaseline
  else if baselineSeq < active.baselineSeq then fail (.refused otherBaseline)
  else if batchSeq < active.nextDeltaBatchSeq then
    pure { nextBatchSeq := active.nextDeltaBatchSeq }
  else if batchSeq > active.nextDeltaBatchSeq then
    invalidateActive key report (.fullReportRequired
      s!"full report required after delta gap: expected batch_seq {active.nextDeltaBatchSeq}, got {batchSeq}")
  else
    match checkedNext batchSeq with
    | none =>
      invalidateActive key report
        (.fullReportRequired "full report required after delta batch sequence overflow")
    | some nextBatchSeq => acceptDelta key report active nextBatchSeq changes

end WorkerManager

/-! ## Calls -/

/-- The calls that change a manager, with the clock values they read. -/
inductive WorkerCall
  | resetWorkerSoftState
  | upsertDescriptor (descriptor : WorkerDescriptor)
  | loadRegisteredWorkers (workers : List WorkerInfo)
  | validateWorkerRegistrationPreflight (key : WorkerRegistrationKey)
      (workerRunId : WorkerRunId) (address : String) (workerNetProtocol : ℤ)
      (expireAt liveAt : ℕ)
  | registerWorkerRun (groupName : GroupName) (workerId : WorkerId) (address : String)
      (workerNetProtocol : ℤ) (workerRunId : WorkerRunId) (faultDomain : Option String)
  | receiveFullBlockReport (groupName : GroupName) (workerId : WorkerId)
      (workerRunId : WorkerRunId) (baselineSeq batchSeq : ℕ) (finalBatch : Bool)
      (blocks : List BlockReportBlock) (expireAt liveAt : ℕ)
  | applyDeltaBlockReport (groupName : GroupName) (workerId : WorkerId)
      (workerRunId : WorkerRunId) (baselineSeq batchSeq : ℕ)
      (changes : List BlockReportChange) (expireAt liveAt : ℕ)
  | markHeartbeatRejectionIfChanged (key : WorkerRegistrationKey) (workerRunId : WorkerRunId)
      (reason : HeartbeatRejectionReason)
  | recordHeartbeatWithTierFree (groupName : GroupName) (workerId : WorkerId)
      (workerRunId : WorkerRunId) (heartbeatSeq : ℕ) (advertisedEndpoint : String)
      (workerNetProtocol : ℤ) (tierFree : List TierFree) (expireAt now nowMs : ℕ)
  | expireLiveness (now : ℕ)
  | removeDeadWorker (groupName : GroupName) (workerId : WorkerId)

namespace WorkerManager

open Transaction

def method : WorkerCall → WorkerM Unit
  | .resetWorkerSoftState => resetWorkerSoftState
  | .upsertDescriptor descriptor => upsertDescriptor descriptor
  | .loadRegisteredWorkers workers => loadRegisteredWorkers workers
  | .validateWorkerRegistrationPreflight key workerRunId address workerNetProtocol expireAt
      liveAt =>
      validateWorkerRegistrationPreflight key workerRunId address workerNetProtocol expireAt
        liveAt
  | .registerWorkerRun groupName workerId address workerNetProtocol workerRunId faultDomain =>
    registerWorkerRun groupName workerId address workerNetProtocol workerRunId faultDomain
  | .receiveFullBlockReport groupName workerId workerRunId baselineSeq batchSeq finalBatch
      blocks expireAt liveAt => do
      let _ ← receiveFullBlockReport groupName workerId workerRunId baselineSeq batchSeq
        finalBatch blocks expireAt liveAt
  | .applyDeltaBlockReport groupName workerId workerRunId baselineSeq batchSeq changes expireAt
      liveAt => do
      let _ ← applyDeltaBlockReport groupName workerId workerRunId baselineSeq batchSeq changes
        expireAt liveAt
  | .markHeartbeatRejectionIfChanged key workerRunId reason => do
      let _ ← markHeartbeatRejectionIfChanged key workerRunId reason
  | .recordHeartbeatWithTierFree groupName workerId workerRunId heartbeatSeq advertisedEndpoint
      workerNetProtocol tierFree expireAt now nowMs => do
      let _ ← recordHeartbeatWithTierFree groupName workerId workerRunId heartbeatSeq
        advertisedEndpoint workerNetProtocol tierFree expireAt now nowMs
  | .expireLiveness now => do
      let _ ← expireLiveness now
  | .removeDeadWorker groupName workerId => do
      let _ ← removeDeadWorker groupName workerId

def afterCall (manager : WorkerManager) (call : WorkerCall) : WorkerManager :=
  (method call manager).2

def afterCalls (manager : WorkerManager) (calls : List WorkerCall) : WorkerManager :=
  calls.foldl afterCall manager

end WorkerManager

end Beryl
