import Beryl.SessionRegistry

/-!
# The methods of the write-session registry

The owners that the methods hand out (`WriteOpening`, `CreateOpening`,
`WriteTargetReservation`, `WritePublication`) are plain values here; that an owner
is dropped or used up at most once is kept track of where runs are defined.
-/

namespace Beryl

open Transaction Registry

/-! ## Inputs, owners and errors -/

structure BeginSessionInput where
  normalizedPath : String
  mountId : MountId
  inodeId : InodeId
  currentLeaseEpoch : LeaseEpoch
  mode : WriteMode
  openClientId : ClientId
  layout : FileLayout
  ancestorInodeIds : List InodeId
deriving DecidableEq

structure BeginCreateSessionInput where
  operationId : CreateFileOperationId
  requestDeadlineMs : ℕ
  normalizedPath : String
  mountId : MountId
  expectedMountEpoch : ℕ
  mountRootInodeId : InodeId
  openClientId : ClientId
  parentAncestorInodeIds : List InodeId
deriving DecidableEq

structure WriteOpening where
  inodeId : InodeId
  openingId : WriteOpeningId
  proposedLeaseEpoch : LeaseEpoch
deriving DecidableEq

structure CreateOpening where
  operationId : CreateFileOperationId
  openingId : WriteOpeningId
  expiresAtMs : ℕ
deriving DecidableEq

structure WriteTargetReservation where
  inodeId : InodeId
  leaseEpoch : LeaseEpoch
  pending : PendingAllocateBlock
  layout : FileLayout
  openClientId : ClientId
  fileOffset : ℕ
deriving DecidableEq

/-- The session is the snapshot frozen by `begin_publication`. -/
structure WritePublication where
  session : WriteSession
  publicationId : WritePublicationId
  submitted : Bool
deriving DecidableEq

inductive WriteSessionLimit
  | global
  | perClient
deriving DecidableEq

structure WriteSessionLimitExceeded where
  limit : WriteSessionLimit
  maximum : ℕ
deriving DecidableEq

inductive WriteTargetLimit
  | global
  | perSession
deriving DecidableEq

structure WriteTargetLimitExceeded where
  limit : WriteTargetLimit
  maximum : ℕ
deriving DecidableEq

inductive BeginCreateSession
  | replay (response : CreateSessionReplay)
  | reserved (opening : CreateOpening)
deriving DecidableEq

inductive BeginAllocateBlock
  | replay (target : LocatedBlock)
  | reserved (reservation : WriteTargetReservation)
deriving DecidableEq

inductive BeginCreateSessionError
  | pending
  | identityMismatch
  | pathBusy
  | limitExceeded (rejection : WriteSessionLimitExceeded)
  | openingIdExhausted
  | invalidAncestorChain
deriving DecidableEq

inductive BeginSessionError
  | busy
  | limitExceeded (rejection : WriteSessionLimitExceeded)
  | leaseEpochExhausted
  | openingIdExhausted
  | invalidAncestorChain
deriving DecidableEq

inductive WriteOpeningError
  | targetLimit
  | expired
  | notCurrent
  | leaseEpochMismatch (expected got : LeaseEpoch)
deriving DecidableEq

inductive BeginAllocateBlockError
  | session (message : String)
  | internal (message : String)
  | invalidArgument (message : String)
  | pending
  | publicationInProgress
  | limitExceeded (rejection : WriteTargetLimitExceeded)
deriving DecidableEq

inductive BeginWritePublicationError
  | session (message : String)
  | allocateBlockPending
  | publicationInProgress
  | publicationIdExhausted
deriving DecidableEq

inductive CompleteWriteTargetError
  | notCurrent
  | invalidTarget (message : String)
deriving DecidableEq

inductive WriteSessionError
  | notFound
  | leaseEpochMismatch (expected got : LeaseEpoch)
  | ownerMismatch
  | expired
deriving DecidableEq

/-! ## Captured paths -/

/-- The file's own chain: bounded, ending at the file, without a repeated inode. -/
def validateAncestorChain (inodeId : InodeId) (ancestorInodeIds : List InodeId) :
    Except String Unit :=
  if ancestorInodeIds = [] then
    .error "write session ancestor chain cannot be empty"
  else if ancestorInodeIds.length > maxPathComponents + 1 then
    .error "write session ancestor chain exceeds the path depth limit"
  else if ancestorInodeIds.getLast? ≠ some inodeId then
    .error "write session ancestor chain must end at the file inode"
  else if ¬ancestorInodeIds.Nodup then
    .error "write session ancestor chain contains a cycle"
  else .ok ()

def validateParentAncestorChain (ancestorInodeIds : List InodeId) : Except String Unit :=
  if ancestorInodeIds = [] then
    .error "create session parent ancestor chain cannot be empty"
  else if ancestorInodeIds.length > maxPathComponents then
    .error "create session parent ancestor chain exceeds the path depth limit"
  else if ¬ancestorInodeIds.Nodup then
    .error "create session parent ancestor chain contains a cycle"
  else .ok ()

/-! ## Opening sessions -/

variable (registry : SessionRegistry)

/-- The admission limit that a further session of this client would exceed. -/
def sessionRejection (state : SessionRegistryState) (clientId : ClientId) :
    Option WriteSessionLimitExceeded :=
  if state.entries.len + state.createOpenings.len ≥ registry.maxSessions then
    some ⟨.global, registry.maxSessions⟩
  else if (state.occupiedSessionsByClient.lookup clientId).getD 0 ≥
      registry.maxSessionsPerClient then
    some ⟨.perClient, registry.maxSessionsPerClient⟩
  else none

def takeOpeningId {E : Type} (exhausted : E) : Registry E WriteOpeningId := do
  let state ← current
  let next ← okOr (checkedAddU64 state.nextOpeningId 1) (.refused exhausted)
  update fun state => { state with nextOpeningId := next }
  pure state.nextOpeningId

/-- The active session that the index of create operations must point to. -/
def exactCreateSession (state : SessionRegistryState) (inodeId : InodeId)
    (operationId : CreateFileOperationId) : Option WriteSession :=
  match state.entries.lookup inodeId with
  | some (.active session) =>
    if session.createOperation = some operationId then some session else none
  | _ => none

def replayActiveCreate (input : BeginCreateSessionInput) (inodeId : InodeId) :
    Registry BeginCreateSessionError BeginCreateSession := do
  let state ← current
  let session ← expect (exactCreateSession state inodeId input.operationId)
    "active CreateFile operation index must identify its exact session"
  let replay ← expect session.createReplay
    "active CreateFile operation must retain its replay identity"
  refuseIf (replay.requestDeadlineMs ≠ input.requestDeadlineMs ∨
    replay.normalizedPath ≠ input.normalizedPath ∨ replay.mountId ≠ input.mountId ∨
    replay.expectedMountEpoch ≠ input.expectedMountEpoch ∨
    replay.mountRootInodeId ≠ input.mountRootInodeId) .identityMismatch
  pure (.replay replay.response)

def pendingCreateError (opening : CreateOpeningSession) (input : BeginCreateSessionInput) :
    BeginCreateSessionError :=
  if opening.requestDeadlineMs = input.requestDeadlineMs ∧
      opening.normalizedPath = input.normalizedPath ∧ opening.mountId = input.mountId ∧
      opening.expectedMountEpoch = input.expectedMountEpoch ∧
      opening.mountRootInodeId = input.mountRootInodeId then .pending
  else .identityMismatch

def BeginCreateSessionInput.opening (input : BeginCreateSessionInput)
    (openingId : WriteOpeningId) (expiresAtMs : ℕ) : CreateOpeningSession where
  openingId := openingId
  operationId := input.operationId
  requestDeadlineMs := input.requestDeadlineMs
  normalizedPath := input.normalizedPath
  mountId := input.mountId
  expectedMountEpoch := input.expectedMountEpoch
  mountRootInodeId := input.mountRootInodeId
  openClientId := input.openClientId
  expiresAtMs := expiresAtMs
  parentAncestorInodeIds := input.parentAncestorInodeIds

def BeginSessionInput.opening (input : BeginSessionInput) (openingId : WriteOpeningId)
    (proposedLeaseEpoch : LeaseEpoch) (expiresAtMs : ℕ) : OpeningSession where
  openingId := openingId
  inodeId := input.inodeId
  mountId := input.mountId
  proposedLeaseEpoch := proposedLeaseEpoch
  mode := input.mode
  openClientId := input.openClientId
  layout := input.layout
  expiresAtMs := expiresAtMs
  ancestorInodeIds := input.ancestorInodeIds

/-- The part of `begin_create_session_at` for an operation the registry does not know. -/
def reserveCreateOpening (input : BeginCreateSessionInput) (nowMs : ℕ) :
    Registry BeginCreateSessionError BeginCreateSession := do
  let state ← current
  refuseIf (state.createOpeningsByPath.lookup (input.mountId, input.normalizedPath) ≠ none)
    .pathBusy
  refuseSome (sessionRejection registry state input.openClientId) .limitExceeded
  let openingId ← takeOpeningId BeginCreateSessionError.openingIdExhausted
  let expiresAtMs := saturatingAddU64 nowMs registry.sessionTtlMs
  insertCreateOpening (input.opening openingId expiresAtMs)
  pure (.reserved ⟨input.operationId, openingId, expiresAtMs⟩)

def beginCreateSessionAt (input : BeginCreateSessionInput) (nowMs : ℕ) :
    Registry BeginCreateSessionError BeginCreateSession := do
  refuseIf (input.operationId.clientId ≠ input.openClientId) .identityMismatch
  tryWith (fun _ => .invalidAncestorChain)
    (validateParentAncestorChain input.parentAncestorInodeIds)
  let _ ← retireExpiredCreateOpeningForOperation input.operationId nowMs
  let _ ← retireExpiredEntries nowMs
  let state ← current
  match state.activeCreateOperations.lookup input.operationId with
  | some inodeId => replayActiveCreate input inodeId
  | none =>
    match state.createOpenings.lookup input.operationId with
    | some opening => fail (.refused (pendingCreateError opening input))
    | none => reserveCreateOpening registry input nowMs

def beginSessionAt (input : BeginSessionInput) (nowMs : ℕ) :
    Registry BeginSessionError WriteOpening := do
  tryWith (fun _ => .invalidAncestorChain)
    (validateAncestorChain input.inodeId input.ancestorInodeIds)
  retireFor input.inodeId nowMs
  let state ← current
  refuseIf (state.entries.lookup input.inodeId ≠ none ∨
    state.createOpeningsByPath.lookup (input.mountId, input.normalizedPath) ≠ none) .busy
  refuseSome (sessionRejection registry state input.openClientId) .limitExceeded
  let proposedLeaseEpoch ← okOr (checkedNext input.currentLeaseEpoch)
    (.refused .leaseEpochExhausted)
  let openingId ← takeOpeningId BeginSessionError.openingIdExhausted
  insertEntry (.opening (input.opening openingId proposedLeaseEpoch
    (saturatingAddU64 nowMs registry.sessionTtlMs)))
  pure ⟨input.inodeId, openingId, proposedLeaseEpoch⟩

/-! ## Activating sessions -/

def OpeningSession.activated (opening : OpeningSession) (file : FileData)
    (tail : Option LocatedBlock) : WriteSession where
  inodeId := opening.inodeId
  mountId := opening.mountId
  leaseEpoch := opening.proposedLeaseEpoch
  baseSize := file.len
  generation := file.generation
  mode := opening.mode
  openClientId := opening.openClientId
  layout := opening.layout
  expiresAtMs := opening.expiresAtMs
  ancestorInodeIds := opening.ancestorInodeIds
  issuedTargets := tail.toList
  issuedSteps := ∅
  pendingAllocateBlock := none
  activePublication := none
  publicationSubmitted := false
  createReplay := none

/-- The opening of this inode, if it is the one with this identity. -/
def exactOpening (state : SessionRegistryState) (inodeId : InodeId)
    (openingId : WriteOpeningId) : Option OpeningSession :=
  match state.entries.lookup inodeId with
  | some (.opening opening) => if opening.openingId = openingId then some opening else none
  | _ => none

def activateOpening (inodeId : InodeId) (openingId : WriteOpeningId)
    (returnedLeaseEpoch : LeaseEpoch) (nowMs : ℕ) (file : FileData)
    (tail : Option LocatedBlock) : Registry WriteOpeningError WriteSession := do
  let state ← current
  let opening ← okOr (exactOpening state inodeId openingId) (.refused .notCurrent)
  if opening.expiresAtMs ≤ nowMs then do
    let _ ← retireExpiredEntryForInode inodeId nowMs
    fail (.refused .expired)
  else do
    refuseIf (opening.proposedLeaseEpoch ≠ returnedLeaseEpoch)
      (.leaseEpochMismatch opening.proposedLeaseEpoch returnedLeaseEpoch)
    refuseIf (file.leaseEpoch ≠ returnedLeaseEpoch ∨ file.layout ≠ opening.layout)
      .notCurrent
    refuseIf (tail.isSome ∧ state.outstandingWriteTargets ≥ registry.maxWriteTargets)
      .targetLimit
    update fun state => { state with
      outstandingWriteTargets :=
        state.outstandingWriteTargets + if tail.isSome then 1 else 0 }
    let state ← current
    assertThat (exactOpening state inodeId openingId ≠ none)
      "validated write opening must remain current under the registry lock"
    update fun state => { state with
      entries := state.entries.insert inodeId (.active (opening.activated file tail)) }
    releaseOpening "activated write session must own one opening count"
    recordSessionGauges
    pure (opening.activated file tail)

/-- The session a create opening becomes once Raft created its file. -/
def CreateOpeningSession.activated (opening : CreateOpeningSession)
    (operationId : CreateFileOperationId) (inodeId : InodeId) (leaseEpoch : LeaseEpoch)
    (expiresAtMs : ℕ) (layout : FileLayout) (generation : ContentGeneration) :
    WriteSession where
  inodeId := inodeId
  mountId := opening.mountId
  leaseEpoch := leaseEpoch
  baseSize := 0
  generation := generation
  mode := .overwrite
  openClientId := opening.openClientId
  layout := layout
  expiresAtMs := expiresAtMs
  ancestorInodeIds := opening.parentAncestorInodeIds ++ [inodeId]
  issuedTargets := []
  issuedSteps := ∅
  pendingAllocateBlock := none
  activePublication := none
  publicationSubmitted := false
  createReplay := some
    { operationId := operationId
      requestDeadlineMs := opening.requestDeadlineMs
      normalizedPath := opening.normalizedPath
      mountId := opening.mountId
      expectedMountEpoch := opening.expectedMountEpoch
      mountRootInodeId := opening.mountRootInodeId
      response := ⟨inodeId, leaseEpoch, layout, expiresAtMs, generation⟩ }

def exactCreateOpening (state : SessionRegistryState) (operationId : CreateFileOperationId)
    (openingId : WriteOpeningId) : Option CreateOpeningSession :=
  match state.createOpenings.lookup operationId with
  | some opening => if opening.openingId = openingId then some opening else none
  | none => none

def activateCreateOpening (operationId : CreateFileOperationId) (openingId : WriteOpeningId)
    (inodeId : InodeId) (leaseEpoch : LeaseEpoch) (expiresAtMs : ℕ) (layout : FileLayout)
    (generation : ContentGeneration) (nowMs : ℕ) :
    Registry WriteOpeningError WriteSession := do
  let state ← current
  let opening ← okOr (exactCreateOpening state operationId openingId) (.refused .notCurrent)
  if opening.expiresAtMs ≤ nowMs ∨ expiresAtMs ≤ nowMs then do
    let _ ← removeCreateOpening operationId
    fail (.refused .expired)
  else do
    refuseIf (leaseEpoch = 0 ∨ state.entries.lookup inodeId ≠ none) .notCurrent
    tryWith (fun _ => .notCurrent)
      (validateAncestorChain inodeId (opening.parentAncestorInodeIds ++ [inodeId]))
    let removed ← removeCreateOpening operationId
    let opening ← expect removed
      "validated CreateFile opening must remain current under the registry lock"
    let session :=
      opening.activated operationId inodeId leaseEpoch expiresAtMs layout generation
    insertEntry (.active session)
    pure session

/-! ## Allocating write targets -/

def activeSession (state : SessionRegistryState) (inodeId : InodeId) :
    Except String WriteSession :=
  match state.entries.lookup inodeId with
  | some (.active session) => .ok session
  | some (.opening _) => .error "write session is still opening"
  | none => .error "write session not found"

/-- `active_session_mut(..).expect(..)` after the session was validated. -/
def expectActive {E : Type} (inodeId : InodeId) (message : String) :
    Registry E WriteSession := do
  let state ← current
  expectOk ((activeSession state inodeId).mapError fun _ => message)

def putSession {E : Type} (inodeId : InodeId) (session : WriteSession) : Registry E Unit :=
  update fun state => { state with entries := state.entries.insert inodeId (.active session) }

def mustRemainCurrent : String :=
  "validated active session must remain current under the registry lock"

def nextTargetFileOffset (session : WriteSession) : Except String ℕ :=
  match session.issuedTargets.getLast? with
  | none => .ok (if session.mode = .overwrite then 0 else session.baseSize)
  | some last =>
    match checkedAddU64 last.fileOffset last.blockSize with
    | some offset => .ok offset
    | none => .error "write target file offset overflow"

def debugOptionBlockId : Option BlockId → String
  | none => "None"
  | some block => s!"Some(BlockId(inode_id={block.inodeId}, index={block.index}))"

def WriteSession.lastIssued (session : WriteSession) : Option BlockId :=
  session.issuedTargets.getLast?.map LocatedBlock.blockId

/-- The part of `begin_allocate_block` for a step that was not issued yet. -/
def reserveWriteTarget (session : WriteSession) (inodeId : InodeId)
    (leaseEpoch : LeaseEpoch) (previousBlockId : Option BlockId) :
    Registry BeginAllocateBlockError BeginAllocateBlock := do
  refuseIf (session.activePublication ≠ none) .publicationInProgress
  refuseIf (previousBlockId ≠ session.lastIssued)
    (.invalidArgument ("AllocateBlock predecessor mismatch: expected " ++
      debugOptionBlockId session.lastIssued ++ ", got " ++ debugOptionBlockId previousBlockId))
  refuseIf (session.pendingAllocateBlock ≠ none) .pending
  let fileOffset ← tryWith BeginAllocateBlockError.invalidArgument
    (nextTargetFileOffset session)
  refuseIf (session.issuedTargets.length ≥ registry.maxWriteTargetsPerSession)
    (.limitExceeded ⟨.perSession, registry.maxWriteTargetsPerSession⟩)
  let state ← current
  refuseIf (state.outstandingWriteTargets ≥ registry.maxWriteTargets)
    (.limitExceeded ⟨.global, registry.maxWriteTargets⟩)
  let session ← expectActive inodeId mustRemainCurrent
  assertThat (session.pendingAllocateBlock = none)
    "assertion failed: session.pending_allocate_block.replace(pending.clone()).is_none()"
  putSession inodeId { session with pendingAllocateBlock := some ⟨previousBlockId⟩ }
  let outstanding ← expect (checkedAddU64 state.outstandingWriteTargets 1)
    "write-target occupancy below its limit must increment"
  let pending ← expect (checkedAddU64 state.pendingWriteTargets 1)
    "pending write-target occupancy must increment"
  update fun state => { state with
    outstandingWriteTargets := outstanding
    pendingWriteTargets := pending }
  recordWriteTargetGauges
  pure (.reserved
    ⟨inodeId, leaseEpoch, ⟨previousBlockId⟩, session.layout, session.openClientId, fileOffset⟩)

def beginAllocateBlock (inodeId : InodeId) (leaseEpoch : LeaseEpoch)
    (previousBlockId : Option BlockId) (nowMs : ℕ) :
    Registry BeginAllocateBlockError BeginAllocateBlock := do
  retireFor inodeId nowMs
  let state ← current
  let session ← tryWith BeginAllocateBlockError.session (activeSession state inodeId)
  refuseIf (session.leaseEpoch ≠ leaseEpoch)
    (.session "write session lease epoch mismatch")
  match session.issuedSteps.lookup previousBlockId with
  | some targetIndex => do
      let target ← okOr session.issuedTargets[targetIndex]?
        (.refused (.internal "issued AllocateBlock target index is inconsistent"))
      pure (.replay target)
  | none => reserveWriteTarget registry session inodeId leaseEpoch previousBlockId

/-- Fencing, offset and layout of a target that is about to be issued. -/
def validateWriteTarget (session : WriteSession) (leaseEpoch : LeaseEpoch)
    (target : LocatedBlock) : Except String Unit := do
  if target.blockId.inodeId ≠ session.inodeId then
    throw "write target inode mismatch"
  if target.fencingToken.blockId ≠ target.blockId ∨
      target.fencingToken.owner ≠ session.openClientId ∨
      target.fencingToken.epoch ≠ leaseEpoch then
    throw "write target fencing token mismatch"
  let offset ← nextTargetFileOffset session
  if target.fileOffset ≠ offset then
    throw s!"write target file offset changed: expected {offset}, got {target.fileOffset}"
  let targetShape ← (BlockShape.new target.blockFormatId target.blockSize target.chunkSize
    target.blockSize).mapError fun error => s!"invalid write target shape: {error.display}"
  let expectedShape ← (BlockShape.forEffectiveLen session.layout
    session.layout.blockSize).mapError fun error =>
      s!"invalid session layout shape: {error.display}"
  if targetShape ≠ expectedShape then
    throw "write target shape does not match the session layout"
  if target.writeOffset ≠ 0 then
    throw "new block must start at offset zero"

/-- Whether this exact step is pending in the session of this epoch. -/
def pendingMatches (state : SessionRegistryState) (inodeId : InodeId)
    (leaseEpoch : LeaseEpoch) (pending : PendingAllocateBlock) : Bool :=
  match state.entries.lookup inodeId with
  | some (.active session) =>
    session.leaseEpoch = leaseEpoch ∧ session.pendingAllocateBlock = some pending
  | _ => false

def cancelWriteTargetLocked {E : Type} (inodeId : InodeId) (leaseEpoch : LeaseEpoch)
    (pending : PendingAllocateBlock) : Registry E Bool := do
  let state ← current
  if pendingMatches state inodeId leaseEpoch pending then do
    let session ← expectActive inodeId
      "matching pending target must belong to an active session"
    assertThat (session.pendingAllocateBlock = some pending)
      "assertion `left == right` failed"
    putSession inodeId { session with pendingAllocateBlock := none }
    releaseOutstanding 1 "pending target must own one outstanding count"
    releasePending 1 "pending target must own one pending count"
    recordWriteTargetGauges
    pure true
  else pure false

def WriteSession.issued (session : WriteSession) (pending : PendingAllocateBlock)
    (target : LocatedBlock) : WriteSession :=
  { session with
    issuedTargets := session.issuedTargets ++ [target]
    issuedSteps := session.issuedSteps.insert pending.previousBlockId
      session.issuedTargets.length
    pendingAllocateBlock := none }

def issueTarget (inodeId : InodeId) (pending : PendingAllocateBlock)
    (target : LocatedBlock) : Registry CompleteWriteTargetError LocatedBlock := do
  let session ← expectActive inodeId mustRemainCurrent
  assertThat (session.issuedSteps.lookup pending.previousBlockId = none)
    "reserved AllocateBlock predecessor must not already be issued"
  assertThat (session.pendingAllocateBlock = some pending)
    "assertion `left == right` failed"
  putSession inodeId (session.issued pending target)
  releasePending 1 "completed target must own one pending count"
  recordWriteTargetGauges
  pure target

def completeWriteTarget (inodeId : InodeId) (leaseEpoch : LeaseEpoch)
    (pending : PendingAllocateBlock) (target : LocatedBlock) (nowMs : ℕ) :
    Registry CompleteWriteTargetError LocatedBlock := do
  retireFor inodeId nowMs
  let state ← current
  let session ← tryWith (fun _ => .notCurrent) (activeSession state inodeId)
  refuseIf (session.leaseEpoch ≠ leaseEpoch) .notCurrent
  refuseIf (session.pendingAllocateBlock ≠ some pending) .notCurrent
  match validateWriteTarget session leaseEpoch target with
  | .error message => do
      let _ ← cancelWriteTargetLocked inodeId leaseEpoch pending
      fail (.refused (.invalidTarget message))
  | .ok () => issueTarget inodeId pending target

/-! ## Publications -/

def beginPublication (inodeId : InodeId) (leaseEpoch : LeaseEpoch) (nowMs : ℕ) :
    Registry BeginWritePublicationError WritePublication := do
  retireFor inodeId nowMs
  let state ← current
  let session ← tryWith BeginWritePublicationError.session (activeSession state inodeId)
  refuseIf (session.leaseEpoch ≠ leaseEpoch)
    (.session "write session lease epoch mismatch")
  refuseIf (session.pendingAllocateBlock ≠ none) .allocateBlockPending
  refuseIf (session.activePublication ≠ none) .publicationInProgress
  let next ← okOr (checkedAddU64 state.nextPublicationId 1)
    (.refused .publicationIdExhausted)
  update fun state => { state with nextPublicationId := next }
  let session ← expectActive inodeId mustRemainCurrent
  assertThat (session.activePublication = none)
    "assertion failed: session.active_publication.replace(publication_id).is_none()"
  let session := { session with activePublication := some state.nextPublicationId }
  putSession inodeId session
  pure ⟨session, state.nextPublicationId, false⟩

def ownedSession (inodeId : InodeId) (leaseEpoch : LeaseEpoch)
    (publicationId : WritePublicationId) : Registry String WriteSession := do
  let state ← current
  let session ← tryWith id (activeSession state inodeId)
  refuseIf (session.leaseEpoch ≠ leaseEpoch) "write session lease epoch mismatch"
  refuseIf (session.activePublication ≠ some publicationId)
    "write publication is no longer current"
  pure session

def revalidatePublication (inodeId : InodeId) (leaseEpoch : LeaseEpoch)
    (publicationId : WritePublicationId) (nowMs : ℕ) : Registry String WriteSession := do
  retireFor inodeId nowMs
  ownedSession inodeId leaseEpoch publicationId

/-- `WritePublication::mark_submitted`; the owner it returns is the submitted one. -/
def markSubmitted (publication : WritePublication) (nowMs : ℕ) :
    Registry String WritePublication :=
  if publication.submitted then pure publication
  else do
    refuseIf (checkedNext publication.session.leaseEpoch = none)
      "file publication write lease epoch exhausted"
    let state ← current
    let inodeId := publication.session.inodeId
    let session ← tryWith id (activeSession state inodeId)
    refuseIf (session.leaseEpoch ≠ publication.session.leaseEpoch ∨
      session.activePublication ≠ some publication.publicationId ∨ session.expiresAtMs ≤ nowMs)
      "file publication session changed or expired before submission"
    putSession inodeId { session with publicationSubmitted := true }
    moveExpiryIndexes inodeId session.ancestorInodeIds session.expiresAtMs u64Max
    pure { publication with submitted := true }

/-- Restore ordinary lease expiry once the visible prefix is durable. -/
def releaseSyncPublication {E : Type} (inodeId : InodeId) : Registry E Unit := do
  let session ← expectActive inodeId "publication owns the session"
  if session.publicationSubmitted then do
    putSession inodeId { session with activePublication := none, publicationSubmitted := false }
    moveExpiryIndexes inodeId session.ancestorInodeIds u64Max session.expiresAtMs
  else putSession inodeId { session with activePublication := none }

def retainedTargetCount (targets : List LocatedBlock) (fileSize : ℕ) : ℕ :=
  (targets.takeWhile fun target => target.fileOffset < fileSize).length

/-- A session after its first `count` targets became visible as a new generation. -/
def WriteSession.synced (session : WriteSession) (generation : ContentGeneration)
    (fileSize count : ℕ) : WriteSession :=
  { session with
    issuedTargets := session.issuedTargets.take count
    issuedSteps := session.issuedSteps.filterValues fun targetIndex => targetIndex < count
    generation := generation
    baseSize := fileSize
    mode := .append
    activePublication := none }

/-- The part of `complete_sync_publication` that installs a new generation. -/
def installSync (session : WriteSession) (inodeId : InodeId)
    (generation : ContentGeneration) (fileSize : ℕ) : Registry String Unit := do
  let expected ← okOr (checkedNext session.generation)
    (.refused "content generation overflow")
  refuseIf (generation ≠ expected)
    s!"SyncWrite content generation changed: expected {expected}, got {generation}"
  let retained := retainedTargetCount session.issuedTargets fileSize
  putSession inodeId (session.synced generation fileSize retained)
  releaseOutstanding (session.issuedTargets.length - retained)
    "discarded issued targets must be included in global occupancy"
  releaseSyncPublication inodeId
  recordWriteTargetGauges

def completeSyncPublication (inodeId : InodeId) (leaseEpoch : LeaseEpoch)
    (publicationId : WritePublicationId) (generation : ContentGeneration) (fileSize nowMs : ℕ) :
    Registry String Unit := do
  retireFor inodeId nowMs
  let session ← ownedSession inodeId leaseEpoch publicationId
  if session.generation = generation then do
    refuseIf (session.baseSize ≠ fileSize)
      s!"replayed SyncWrite size changed: expected {session.baseSize}, got {fileSize}"
    putSession inodeId { session with mode := .append }
    releaseSyncPublication inodeId
  else installSync session inodeId generation fileSize

def publicationMatches (state : SessionRegistryState) (inodeId : InodeId)
    (leaseEpoch : LeaseEpoch) (publicationId : WritePublicationId) : Bool :=
  match state.entries.lookup inodeId with
  | some (.active session) =>
    session.leaseEpoch = leaseEpoch ∧ session.activePublication = some publicationId
  | _ => false

def completeCommitPublication {E : Type} (inodeId : InodeId) (leaseEpoch : LeaseEpoch)
    (publicationId : WritePublicationId) : Registry E Unit := do
  let state ← current
  if publicationMatches state inodeId leaseEpoch publicationId then do
    let _ ← removeEntry inodeId
    pure ()
  else pure ()

def cancelPublication {E : Type} (inodeId : InodeId) (leaseEpoch : LeaseEpoch)
    (publicationId : WritePublicationId) : Registry E Unit :=
  update fun state =>
    match state.entries.lookup inodeId with
    | some (.active session) =>
      if session.leaseEpoch = leaseEpoch ∧ session.activePublication = some publicationId then
        { state with
          entries := state.entries.insert inodeId
            (.active { session with activePublication := none }) }
      else state
    | _ => state

/-! ## Cancelling -/

def cancelOpening {E : Type} (inodeId : InodeId) (openingId : WriteOpeningId) :
    Registry E Unit := do
  let state ← current
  if (exactOpening state inodeId openingId).isSome then do
    let _ ← removeEntry inodeId
    pure ()
  else pure ()

def cancelCreateOpening {E : Type} (operationId : CreateFileOperationId)
    (openingId : WriteOpeningId) : Registry E Unit := do
  let state ← current
  if (exactCreateOpening state operationId openingId).isSome then do
    let _ ← removeCreateOpening operationId
    pure ()
  else pure ()

def removeSessionIfEpoch {E : Type} (inodeId : InodeId) (leaseEpoch : LeaseEpoch) :
    Registry E (Option WriteSession) := do
  let state ← current
  match state.entries.lookup inodeId with
  | some (.active session) =>
    if session.leaseEpoch = leaseEpoch then do
      let removed ← removeEntry inodeId
      match removed with
      | some (.active session) => pure (some session)
      | _ => fail (.panicked mustRemainCurrent)
    else pure none
  | _ => pure none

/-! ## Queries and renewal -/

def getSession {E : Type} (inodeId : InodeId) (nowMs : ℕ) :
    Registry E (Option WriteSession) := do
  retireFor inodeId nowMs
  let state ← current
  match state.entries.lookup inodeId with
  | some (.active session) => pure (some session)
  | _ => pure none

/-- The checks that `validate_session` and `renew_session_at` start with: an inode
whose lease deadline passed is retired, unless a submitted publication pins it. -/
def unexpiredSession (inodeId : InodeId) (leaseEpoch : LeaseEpoch) (nowMs : ℕ) :
    Registry WriteSessionError WriteSession := do
  let state ← current
  if ((state.entries.lookup inodeId).any fun entry => entry.expiresAtMs ≤ nowMs) then do
    let _ ← retireExpiredEntryForInode inodeId nowMs
    fail (.refused .expired)
  else do
    let _ ← retireExpiredEntries nowMs
    let state ← current
    let session ← tryWith (fun _ => .notFound) (activeSession state inodeId)
    refuseIf (session.leaseEpoch ≠ leaseEpoch)
      (.leaseEpochMismatch session.leaseEpoch leaseEpoch)
    pure session

def validateSession (inodeId : InodeId) (leaseEpoch : LeaseEpoch) (nowMs : ℕ) :
    Registry WriteSessionError Unit := do
  let _ ← unexpiredSession inodeId leaseEpoch nowMs
  pure ()

def moveRenewed {E : Type} (session : WriteSession) (inodeId : InodeId) (expiresAtMs : ℕ) :
    Registry E Unit :=
  if session.publicationSubmitted then pure ()
  else moveExpiryIndexes inodeId session.ancestorInodeIds session.expiresAtMs expiresAtMs

def renewSessionAt (inodeId : InodeId) (leaseEpoch : LeaseEpoch) (clientId : ClientId)
    (nowMs : ℕ) : Registry WriteSessionError ℕ := do
  let session ← unexpiredSession inodeId leaseEpoch nowMs
  refuseIf (session.openClientId ≠ clientId) .ownerMismatch
  let expiresAtMs := max (saturatingAddU64 nowMs registry.sessionTtlMs) session.expiresAtMs
  moveRenewed session inodeId expiresAtMs
  let session ← expectActive inodeId mustRemainCurrent
  putSession inodeId { session with expiresAtMs := expiresAtMs }
  pure expiresAtMs

def retireExpiredBatch {E : Type} (nowMs : ℕ) : Registry E ℕ := retireExpiredEntries nowMs

/-- Whether a live writer or a pinned publication is at or below this inode. -/
def hasActiveWriteUnderAt {E : Type} (inodeId : InodeId) (nowMs : ℕ) : Registry E Bool := do
  let _ ← retireExpiredEntries nowMs
  let state ← current
  pure (match (state.ancestorActivity.lookup inodeId).bind fun expirations =>
      expirations.entries.getLast? with
    | some (expiresAtMs, _) => expiresAtMs > nowMs
    | none => false)

end Beryl
