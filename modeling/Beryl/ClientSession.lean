import Beryl.Inode
import Beryl.Location
import Beryl.Transaction

/-!
# The write session of a client

The client keeps two cursors for one sequential writer: `cursor` counts the bytes that Worker
streams have accepted, `flushCursor` those that a finished stream has made durable.  The blocks
behind the second one wait in `readyBlocks` until a sync or a commit publishes them.  A barrier
freezes its payload first, and a retry may only repeat it.

Clocks and fresh call identities are parameters.  The contexts of the outgoing calls carry no
state of the session and are left out.
-/

namespace Beryl.Client

open Transaction

/-! ## Errors -/

/-- The kinds of `ClientErrorKind` that a session itself answers with. -/
inductive ClientErrorKind
  | invalidArgument
  | staleHandle
  | invalidResponse
deriving DecidableEq

structure ClientError where
  kind : ClientErrorKind
  message : String
deriving DecidableEq

namespace ClientError

def invalidArgument (message : String) : ClientError := ⟨.invalidArgument, message⟩

def invalidLayout (message : String) : ClientError := ⟨.invalidResponse, message⟩

def staleHandle (reason : String) : ClientError := ⟨.staleHandle, reason⟩

end ClientError

/-! ## Sessions -/

structure WriteHandle where
  inodeId : InodeId
  leaseEpoch : LeaseEpoch
deriving DecidableEq

structure ReadyBlock where
  target : LocatedBlock
  writtenLen : ℕ
deriving DecidableEq

def ReadyBlock.committed (block : ReadyBlock) : CommittedBlock :=
  ⟨block.target.blockId, block.writtenLen⟩

/-- `WriteSessionState`; `opened` is the state `Open` of the source. -/
inductive WriteSessionState
  | opened
  | syncPending
  | commitStarted
  | commitUnknown
  | closed
  | aborted
  | unknownOutcome
  | sessionInvalid
  | sessionExpired
  | abortUnknown
deriving DecidableEq

inductive WriteSessionOperation
  | write
  | close
  | abort
  | renew
  | sync
deriving DecidableEq

structure SyncWriteState where
  callId : CallId
  writeHandle : WriteHandle
  committedBlocks : List CommittedBlock
  targetSize : ℕ
  expectedGeneration : ContentGeneration
  expectedFileSize : ℕ
  writeMode : WriteMode
deriving DecidableEq

structure CommitFileState where
  commitCallId : CallId
  commitWriteHandle : WriteHandle
  commitFinalSize : ℕ
  commitCommittedBlocksSnapshot : List CommittedBlock
  expectedGeneration : ContentGeneration
  expectedFileSize : ℕ
  writeMode : WriteMode
deriving DecidableEq

structure WriteSession where
  path : String
  inodeId : InodeId
  layout : FileLayout
  generation : ContentGeneration
  mode : WriteMode
  writeHandle : WriteHandle
  baseSize : ℕ
  cursor : ℕ
  flushCursor : ℕ
  expiresAtMs : Option ℕ
  readyBlocks : List ReadyBlock
  writeGroup : Option GroupName
  state : WriteSessionState
  sync : Option SyncWriteState
  commit : Option CommitFileState
deriving DecidableEq

abbrev SessionM := Transaction WriteSession ClientError

namespace WriteSession

def new (path : String) (layout : FileLayout) (writeHandle : WriteHandle)
    (baseSize expiresAtMs : ℕ) (generation : ContentGeneration) (mode : WriteMode) :
    Except ClientError WriteSession :=
  if expiresAtMs = 0 then
    .error (.invalidArgument "write session expires_at_ms must be non-zero")
  else match layout.validate with
    | .error error => .error (.invalidLayout s!"write session layout invalid: {error.display}")
    | .ok () => .ok
        { path := path
          inodeId := writeHandle.inodeId
          layout := layout
          generation := generation
          mode := mode
          writeHandle := writeHandle
          baseSize := baseSize
          cursor := if mode = .overwrite then 0 else baseSize
          flushCursor := if mode = .overwrite then 0 else baseSize
          expiresAtMs := some expiresAtMs
          readyBlocks := []
          writeGroup := none
          state := .opened
          sync := none
          commit := none }

def stateErrorValue (session : WriteSession) : ClientError :=
  match session.state with
  | .opened => .invalidArgument "write session is open"
  | .syncPending => .staleHandle "write handle has an unresolved SyncWrite"
  | .commitStarted | .commitUnknown => .staleHandle "write handle has an in-progress CommitFile"
  | .closed => .staleHandle "write handle is closed"
  | .aborted => .staleHandle "write handle is aborted"
  | .unknownOutcome => .staleHandle "write handle has an unknown outcome"
  | .sessionInvalid => .staleHandle "write session is invalid"
  | .sessionExpired => .staleHandle "write session lease expired"
  | .abortUnknown => .staleHandle "write handle abort outcome is unknown"

/-- The assignments `self.state = …` of the `mark_…` methods. -/
def mark (state : WriteSessionState) (session : WriteSession) : WriteSession :=
  { session with state := state }

/-! ## Whether an operation may start -/

def leaseExpirySafetyWindowMs : ℕ := 1000

def ensureLeaseValidAtMs (nowMs safetyWindowMs : ℕ) : SessionM Unit := do
  let session ← current
  match session.expiresAtMs with
  | none => pure ()
  | some expiresAtMs =>
    if expiresAtMs ≤ nowMs then
      update (mark .sessionExpired)
      fail (.staleHandle "write session lease expired")
    else if expiresAtMs - nowMs ≤ safetyWindowMs then
      update (mark .sessionExpired)
      fail (.staleHandle "write session lease is near expiry")
    else pure ()

def ensureOperationAllowedAtMs (operation : WriteSessionOperation) (nowMs : ℕ) :
    SessionM Unit := do
  let session ← current
  match session.state, operation with
  | .opened, .renew => ensureLeaseValidAtMs nowMs 0
  | .opened, _ => ensureLeaseValidAtMs nowMs leaseExpirySafetyWindowMs
  | .syncPending, .sync | .commitStarted, .close | .commitUnknown, .close
  | .abortUnknown, .abort => pure ()
  | _, _ => fail session.stateErrorValue

def ensureOpenForWrite (nowMs : ℕ) : SessionM Unit := ensureOperationAllowedAtMs .write nowMs

/-! ## Targets and checkpoints -/

def advanceCursor (len : ℕ) : SessionM Unit := do
  let session ← current
  let cursor ← okOr (checkedAddU64 session.cursor len)
    (.invalidArgument "write cursor overflow")
  update fun session => { session with cursor := cursor }

/-- Check a write target of Metadata before its Worker stream is opened. -/
def validateTarget (target : LocatedBlock) (nowMs : ℕ) : SessionM Unit := do
  ensureOpenForWrite nowMs
  let session ← current
  failIf (checkedAddU64 target.fileOffset target.writeOffset ≠ some session.flushCursor)
    (.invalidLayout s!"write target file_offset mismatch: expected {session.flushCursor}, got {target.fileOffset}")
  let _ ← lift ((BlockShape.new target.blockFormatId target.blockSize target.chunkSize
    target.blockSize).mapError fun error =>
      .invalidLayout s!"write target has invalid shape: {error.display}")
  let format ← lift (session.layout.blockFormatId.spec.mapError fun error =>
    .invalidLayout s!"session block format is invalid: {error.display}")
  let storageChunkSize := format.storageChunkSize
  failIf (target.blockFormatId ≠ session.layout.blockFormatId ∨
      target.blockSize ≠ session.layout.blockSize ∨ target.chunkSize ≠ storageChunkSize)
    (.invalidLayout s!"write target layout does not match session layout: target=({target.blockFormatId}, {target.blockSize}, {target.chunkSize}), session=({session.layout.blockFormatId}, {session.layout.blockSize}, {storageChunkSize})")
  failIf (target.blockId.inodeId ≠ session.inodeId)
    (.staleHandle s!"write target inode_id {target.blockId.inodeId} does not match session inode_id {session.inodeId}")
  failIf (target.writeOffset ≥ target.blockSize ∨
      target.fencingToken.epoch ≠ session.writeHandle.leaseEpoch)
    (.invalidLayout "write target offset or writer epoch is invalid")

def recordWriteGroup (group : GroupName) : SessionM Unit := do
  let session ← current
  failIf (session.writeGroup.any (· ≠ group) = true)
    (.invalidLayout "write target changed Metadata group")
  update fun session => { session with writeGroup := some group }

def acceptOpenTail (group : GroupName) (tail : Option LocatedBlock) (nowMs : ℕ) :
    SessionM Unit := do
  let session ← current
  let needsTail := session.mode = .append ∧ session.baseSize % session.layout.blockSize ≠ 0
  failIf (decide needsTail ≠ tail.isSome)
    (.invalidLayout "OpenWrite tail does not match file length")
  recordWriteGroup group
  match tail with
  | none => pure ()
  | some target =>
    validateTarget target nowMs
    update fun session =>
      { session with readyBlocks := session.readyBlocks ++ [⟨target, target.writeOffset⟩] }

/-- The most recent partial checkpoint, to be continued where it ends. -/
def reusableTail (session : WriteSession) : Option (GroupName × LocatedBlock) := do
  let last ← session.readyBlocks.getLast?
  if last.writtenLen ≥ last.target.blockSize then none
  else
    let group ← session.writeGroup
    pure (group, { last.target with writeOffset := last.writtenLen })

/-- The blocks with the checkpoint of `target` at the end: one that continues the last block
takes its place. -/
def withCheckpoint (blocks : List ReadyBlock) (target : LocatedBlock) (writtenLen : ℕ) :
    List ReadyBlock :=
  (if blocks.getLast?.any (·.target.blockId = target.blockId) then blocks.dropLast else blocks)
    ++ [⟨target, writtenLen⟩]

def pushReadyBlock (target : LocatedBlock) (writtenLen : ℕ) : SessionM Unit := do
  let session ← current
  failIf (writtenLen < target.writeOffset ∨ writtenLen > target.blockSize ∨
      checkedAddU64 target.fileOffset target.writeOffset ≠ some session.flushCursor)
    (.invalidLayout "Worker checkpoint does not match the flush cursor")
  let finalOffset ← okOr (checkedAddU64 target.fileOffset writtenLen)
    (.invalidArgument "write flush cursor overflow")
  failIf (finalOffset ≠ session.cursor)
    (.invalidLayout "Worker checkpoint does not match accepted bytes")
  update fun session =>
    { session with
      readyBlocks := withCheckpoint session.readyBlocks target writtenLen
      flushCursor := finalOffset }

/-! ## Barriers -/

/-- The filter of `publication_blocks`: what lies beyond the last publication. -/
def unpublished (session : WriteSession) (block : ReadyBlock) : Bool :=
  session.mode = .overwrite ∨ block.target.fileOffset + block.writtenLen > session.baseSize

def publicationBlocks (session : WriteSession) : List CommittedBlock :=
  (session.readyBlocks.filter session.unpublished).map ReadyBlock.committed

def prepareSyncWrite (callId : CallId) (committedBlocks : List CommittedBlock)
    (targetSize : ℕ) : SessionM SyncWriteState := do
  let session ← current
  match session.state with
  | .opened =>
    let plan : SyncWriteState :=
      { callId := callId
        writeHandle := session.writeHandle
        committedBlocks := committedBlocks
        targetSize := targetSize
        expectedGeneration := session.generation
        expectedFileSize := session.baseSize
        writeMode := session.mode }
    update fun session => { session with sync := some plan, state := .syncPending }
    pure plan
  | .syncPending =>
    let sync ← okOr session.sync (.invalidArgument "SyncWrite state missing frozen identity")
    failIf (sync.targetSize ≠ targetSize ∨ sync.committedBlocks ≠ committedBlocks)
      (.invalidArgument "SyncWrite payload changed after sync started")
    failIf (sync.writeHandle ≠ session.writeHandle ∨ sync.expectedGeneration ≠ session.generation ∨
        sync.expectedFileSize ≠ session.baseSize ∨ sync.writeMode ≠ session.mode)
      (.invalidArgument "SyncWrite session state changed after sync started")
    pure sync
  | _ => fail session.stateErrorValue

def prepareCommitFile (callId : CallId) (committedBlocks : List CommittedBlock)
    (finalSize : ℕ) : SessionM CommitFileState := do
  let session ← current
  match session.state with
  | .opened =>
    let plan : CommitFileState :=
      { commitCallId := callId
        commitWriteHandle := session.writeHandle
        commitFinalSize := finalSize
        commitCommittedBlocksSnapshot := committedBlocks
        expectedGeneration := session.generation
        expectedFileSize := session.baseSize
        writeMode := session.mode }
    update fun session => { session with commit := some plan, state := .commitStarted }
    pure plan
  | .commitStarted | .commitUnknown =>
    let commit ← okOr session.commit
      (.invalidArgument "CommitFile state missing frozen identity")
    failIf (commit.commitFinalSize ≠ finalSize ∨
        commit.commitCommittedBlocksSnapshot ≠ committedBlocks)
      (.invalidArgument "CommitFile payload changed after commit started")
    failIf (commit.commitWriteHandle ≠ session.writeHandle)
      (.invalidArgument "CommitFile write handle changed after commit started")
    pure commit
  -- the remaining states answer with the text of `state_error_value`
  | _ => fail session.stateErrorValue

/-- Complete the frozen SyncWrite: from here on the session appends to what is visible. -/
def markSyncCompleted (generation : ContentGeneration) (fileSize : ℕ) : SessionM Unit := do
  let session ← current
  failIf (session.state ≠ .syncPending) session.stateErrorValue
  update fun session =>
    { session with
      generation := generation
      baseSize := fileSize
      mode := .append
      sync := none
      state := .opened }

/-! ## What the client calls -/

structure OpenWriteAnswer where
  path : String
  layout : FileLayout
  writeHandle : WriteHandle
  baseSize : ℕ
  expiresAtMs : ℕ
  generation : ContentGeneration
  mode : WriteMode
  groupName : GroupName
  tailBlock : Option LocatedBlock
deriving DecidableEq

def writeSessionFromOpenResponse (answer : OpenWriteAnswer) (nowMs : ℕ) :
    Except ClientError WriteSession :=
  match new answer.path answer.layout answer.writeHandle answer.baseSize answer.expiresAtMs
      answer.generation answer.mode with
  | .error error => .error error
  | .ok session =>
    match acceptOpenTail answer.groupName answer.tailBlock nowMs session with
    | (.error error, _) => .error error
    | (.ok (), session) => .ok session

/-- The target of `open_block_write`: the partial tail, or else what `AllocateBlock` answers. -/
def nextTarget (session : WriteSession) (group : GroupName) (allocated : LocatedBlock) :
    GroupName × LocatedBlock :=
  session.reusableTail.getD (group, allocated)

/-- `open_block_write` up to the request that it sends to the Worker. -/
def openBlockWrite (group : GroupName) (allocated : LocatedBlock) (nowMs : ℕ) :
    SessionM LocatedBlock := do
  let session ← current
  let (group, block) := session.nextTarget group allocated
  match ← attempt (validateTarget block nowMs) with
  | .error error =>
    update (mark .unknownOutcome)
    fail error
  | .ok () =>
    recordWriteGroup group
    let session ← current
    let _ ← okOr session.expiresAtMs (.invalidArgument "write session expiry is missing")
    pure block

/-- `finish_block_write` after the Worker stream has ended normally. -/
def finishBlockWrite (target : LocatedBlock) (writtenLen : ℕ) : SessionM Unit := do
  match ← attempt (pushReadyBlock target writtenLen) with
  | .error error =>
    update (mark .sessionInvalid)
    fail error
  | .ok () => pure ()

/-- `FileWriter::sync` from the moment that no block is open to its request. -/
def startSync (callId : CallId) : SessionM SyncWriteState := do
  let session ← current
  prepareSyncWrite callId session.publicationBlocks session.cursor

/-- `FileWriter::close` from the moment that no block is open to its request. -/
def startClose (callId : CallId) : SessionM CommitFileState := do
  let session ← current
  prepareCommitFile callId session.publicationBlocks session.cursor

/-! ## What a call leaves as it is -/

/-- The two sessions agree on the bytes written and on what is visible of them. -/
structure SameBytes (session session' : WriteSession) : Prop where
  layout : session'.layout = session.layout
  inodeId : session'.inodeId = session.inodeId
  writeHandle : session'.writeHandle = session.writeHandle
  mode : session'.mode = session.mode
  baseSize : session'.baseSize = session.baseSize
  generation : session'.generation = session.generation
  cursor : session'.cursor = session.cursor
  flushCursor : session'.flushCursor = session.flushCursor
  readyBlocks : session'.readyBlocks = session.readyBlocks
  writeGroup : session.writeGroup.isSome → session'.writeGroup.isSome

/-- The session has kept its bytes and its frozen plans; its state has not moved, or it has
moved to one from which no barrier starts. -/
structure Kept (session session' : WriteSession) : Prop extends SameBytes session session' where
  sync : session'.sync = session.sync
  commit : session'.commit = session.commit
  state : session'.state = session.state ∨
    session'.state ∉ [WriteSessionState.opened, .syncPending, .commitStarted]

theorem SameBytes.refl (session : WriteSession) : SameBytes session session :=
  ⟨rfl, rfl, rfl, rfl, rfl, rfl, rfl, rfl, rfl, id⟩

theorem Kept.refl (session : WriteSession) : Kept session session :=
  ⟨.refl session, rfl, rfl, .inl rfl⟩

theorem Kept.mark (session : WriteSession) {state : WriteSessionState}
    (hstate : state ∉ [WriteSessionState.opened, .syncPending, .commitStarted]) :
    Kept session (session.mark state) :=
  ⟨⟨rfl, rfl, rfl, rfl, rfl, rfl, rfl, rfl, rfl, id⟩, rfl, rfl, .inr hstate⟩

theorem Kept.marked {session session' : WriteSession} (h : Kept session session')
    {state : WriteSessionState}
    (hstate : state ∉ [WriteSessionState.opened, .syncPending, .commitStarted]) :
    Kept session (session'.mark state) :=
  ⟨⟨h.layout, h.inodeId, h.writeHandle, h.mode, h.baseSize, h.generation, h.cursor, h.flushCursor,
    h.readyBlocks, h.writeGroup⟩, h.sync, h.commit, .inr hstate⟩

theorem SameBytes.publicationBlocks {session session' : WriteSession}
    (h : SameBytes session session') : session'.publicationBlocks = session.publicationBlocks := by
  have hfilter : session'.unpublished = session.unpublished := by
    funext block
    rw [unpublished, unpublished, h.mode, h.baseSize]
  rw [WriteSession.publicationBlocks, WriteSession.publicationBlocks, h.readyBlocks, hfilter]

section Specs

variable (session : WriteSession)

theorem ensureLeaseValidAtMs_ensures (nowMs window : ℕ) :
    Ensures (ensureLeaseValidAtMs nowMs window) session (fun _ session' => session' = session)
      (fun _ session' => session' = session.mark .sessionExpired) := by
  apply ensures_read
  split
  · exact ensures_pure rfl
  · split
    · exact rfl
    · split
      · exact rfl
      · exact ensures_pure rfl

theorem ensureOperationAllowedAtMs_ensures (operation : WriteSessionOperation) (nowMs : ℕ) :
    Ensures (ensureOperationAllowedAtMs operation nowMs) session
      (fun _ session' => session' = session)
      (fun _ session' => session' = session ∨ session' = session.mark .sessionExpired) := by
  have hlease : ∀ window, Ensures (ensureLeaseValidAtMs nowMs window) session
      (fun _ session' => session' = session)
      (fun _ session' => session' = session ∨ session' = session.mark .sessionExpired) :=
    fun window => (ensureLeaseValidAtMs_ensures session nowMs window).mono (fun _ _ h => h)
      fun _ _ h => .inr h
  apply ensures_read
  split
  · exact hlease _
  · exact hlease _
  all_goals first | exact ensures_pure rfl | exact ensures_fail (.inl rfl)

structure AcceptsTarget (session : WriteSession) (target : LocatedBlock) : Prop where
  isOpen : session.state = .opened
  offset_eq : target.fileOffset + target.writeOffset = session.flushCursor
  blockSize_eq : target.blockSize = session.layout.blockSize
  writeOffset_lt : target.writeOffset < target.blockSize

theorem ensureOpenForWrite_ensures (nowMs : ℕ) : Ensures (ensureOpenForWrite nowMs) session
      (fun _ session' => session' = session ∧ session.state = .opened)
      (fun _ session' => Kept session session') := by
  apply ensures_read
  cases hstate : session.state with
  | opened =>
    apply (ensureLeaseValidAtMs_ensures session nowMs leaseExpirySafetyWindowMs).mono
    · intro _ session' h
      exact ⟨h, rfl⟩
    · intro _ session' h
      rw [h]
      exact Kept.mark _ (by decide)
  | _ => exact ensures_fail (Kept.refl session)

theorem validateTarget_ensures (target : LocatedBlock) (nowMs : ℕ) :
    Ensures (validateTarget target nowMs) session
      (fun _ session' => session' = session ∧ session.AcceptsTarget target)
      (fun _ session' => Kept session session') := by
  have hkept := Kept.refl session
  unfold validateTarget
  apply (ensureOpenForWrite_ensures session nowMs).bind (fun _ _ h => h)
  rintro _ _ ⟨rfl, hopen⟩
  apply ensures_read
  refine failIf_bind (fun _ => hkept) fun hoffset => ?_
  refine lift_bind (fun _ _ => hkept) fun _ _ => ?_
  refine lift_bind (fun _ _ => hkept) fun _ _ => ?_
  refine failIf_bind (fun _ => hkept) fun hlayout => ?_
  refine failIf_bind (fun _ => hkept) fun _ => ?_
  refine ensures_failIf (fun _ => hkept) fun hwrite => ?_
  rw [not_not] at hoffset
  simp only [not_or, not_not, not_le] at hlayout hwrite
  exact ⟨rfl, hopen, (checkedAddU64_eq_some hoffset).1.symm, hlayout.2.1, hwrite.1⟩

theorem recordWriteGroup_ensures (group : GroupName) :
    Ensures (recordWriteGroup group) session
      (fun _ session' => session' = { session with writeGroup := some group })
      (fun _ session' => session' = session) := by
  apply ensures_read
  exact failIf_bind (fun _ => rfl) fun _ => ensures_update rfl

theorem openBlockWrite_ensures (group : GroupName) (allocated : LocatedBlock) (nowMs : ℕ) :
    Ensures (openBlockWrite group allocated nowMs) session
      (fun target session' => target = (session.nextTarget group allocated).2 ∧
        session.AcceptsTarget target ∧ Kept session session' ∧ session'.state = .opened)
      (fun _ session' => Kept session session') := by
  apply ensures_read
  apply ensures_bind
  apply ensures_attempt
  apply (validateTarget_ensures session _ nowMs).mono
  · intro _ session' ⟨hsame, haccepts⟩
    rw [hsame]
    apply (recordWriteGroup_ensures session _).bind
    · intro _ _ hrefused
      rw [hrefused]
      exact Kept.refl _
    · intro _ _ hrecorded
      rw [hrecorded]
      have hkept : Kept session
          { session with writeGroup := some (session.nextTarget group allocated).1 } :=
        ⟨⟨rfl, rfl, rfl, rfl, rfl, rfl, rfl, rfl, rfl, fun _ => rfl⟩, rfl, rfl, .inl rfl⟩
      apply ensures_read
      exact okOr_bind (fun _ => hkept)
        fun _ _ => ensures_pure ⟨rfl, haccepts, hkept, haccepts.isOpen⟩
  · intro _ session' hkept
    exact hkept.marked (by decide)

theorem pushReadyBlock_ensures (target : LocatedBlock) (writtenLen : ℕ) :
    Ensures (pushReadyBlock target writtenLen) session
      (fun _ session' =>
        (target.writeOffset ≤ writtenLen ∧ writtenLen ≤ target.blockSize ∧
          target.fileOffset + target.writeOffset = session.flushCursor ∧
          target.fileOffset + writtenLen = session.cursor) ∧
        session' = { session with
          readyBlocks := withCheckpoint session.readyBlocks target writtenLen
          flushCursor := session.cursor })
      (fun _ session' => session' = session) := by
  apply ensures_read
  refine failIf_bind (fun _ => rfl) fun hfits => ?_
  refine okOr_bind (fun _ => rfl) fun finalOffset hfinal => ?_
  refine failIf_bind (fun _ => rfl) fun hcursor => ?_
  simp only [not_or, not_not, not_lt] at hfits hcursor
  have hoffset := (checkedAddU64_eq_some hfits.2.2).1
  have hend := (checkedAddU64_eq_some hfinal).1
  apply ensures_update
  exact ⟨⟨hfits.1, hfits.2.1, hoffset.symm, by omega⟩, by rw [hcursor]⟩

theorem finishBlockWrite_ensures (target : LocatedBlock) (writtenLen : ℕ) :
    Ensures (finishBlockWrite target writtenLen) session
      (fun _ session' =>
        (target.writeOffset ≤ writtenLen ∧ writtenLen ≤ target.blockSize ∧
          target.fileOffset + target.writeOffset = session.flushCursor ∧
          target.fileOffset + writtenLen = session.cursor) ∧
        session' = { session with
          readyBlocks := withCheckpoint session.readyBlocks target writtenLen
          flushCursor := session.cursor })
      (fun _ session' => session' = session.mark .sessionInvalid) := by
  apply ensures_bind
  apply ensures_attempt
  apply (pushReadyBlock_ensures session target writtenLen).mono
  · intro _ _ h
    exact ensures_pure h
  · rintro _ _ rfl
    exact rfl

theorem prepareSyncWrite_sameBytes (callId : CallId) (blocks : List CommittedBlock) (size : ℕ) :
    Ensures (prepareSyncWrite callId blocks size) session
      (fun _ session' => SameBytes session session')
      (fun _ session' => SameBytes session session') := by
  have hkept := SameBytes.refl session
  apply ensures_read
  split
  · apply ensures_write
    exact ensures_pure ⟨rfl, rfl, rfl, rfl, rfl, rfl, rfl, rfl, rfl, id⟩
  · refine okOr_bind (fun _ => hkept) fun _ _ => ?_
    refine failIf_bind (fun _ => hkept) fun _ => ?_
    exact failIf_bind (fun _ => hkept) fun _ => ensures_pure hkept
  · exact ensures_fail hkept

theorem prepareCommitFile_sameBytes (callId : CallId) (blocks : List CommittedBlock) (size : ℕ) :
    Ensures (prepareCommitFile callId blocks size) session
      (fun _ session' => SameBytes session session')
      (fun _ session' => SameBytes session session') := by
  have hkept := SameBytes.refl session
  have hrepeats : Ensures (do
      let commit ← okOr session.commit
        (.invalidArgument "CommitFile state missing frozen identity")
      failIf (commit.commitFinalSize ≠ size ∨ commit.commitCommittedBlocksSnapshot ≠ blocks)
        (.invalidArgument "CommitFile payload changed after commit started")
      failIf (commit.commitWriteHandle ≠ session.writeHandle)
        (.invalidArgument "CommitFile write handle changed after commit started")
      pure commit : SessionM CommitFileState) session
      (fun _ session' => SameBytes session session')
      (fun _ session' => SameBytes session session') := by
    refine okOr_bind (fun _ => hkept) fun _ _ => ?_
    refine failIf_bind (fun _ => hkept) fun _ => ?_
    exact failIf_bind (fun _ => hkept) fun _ => ensures_pure hkept
  apply ensures_read
  split
  · apply ensures_write
    exact ensures_pure ⟨rfl, rfl, rfl, rfl, rfl, rfl, rfl, rfl, rfl, id⟩
  · exact hrepeats
  · exact hrepeats
  · exact ensures_fail hkept

theorem markSyncCompleted_ensures (generation : ContentGeneration) (fileSize : ℕ) :
    Ensures (markSyncCompleted generation fileSize) session
      (fun _ session' => session.state = .syncPending ∧ session' = { session with
        generation := generation
        baseSize := fileSize
        mode := .append
        sync := none
        state := .opened })
      (fun _ session' => session' = session) := by
  apply ensures_read
  refine failIf_bind (fun _ => rfl) fun hpending => ?_
  rw [not_not] at hpending
  exact ensures_update ⟨hpending, rfl⟩

end Specs

end WriteSession

end Beryl.Client
