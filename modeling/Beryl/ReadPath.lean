import Beryl.Observer
import Beryl.PathResolver
import Beryl.StateMachine

/-!
# Reading from a replica

The handlers of `GetStatus`, `ListStatus`, `OpenFile` and `GetBlockLocations`.  Every storage
call is a look of its own: the replica goes on applying entries between two calls of one
request.  What the handlers read in memory (the applied log id, the route epoch, readiness, the
reported workers) is looked at in the same way.  The mount table of a bootstrapped replica does
not change and is a parameter.
-/

namespace Beryl

open Observer

/-! ## Log positions -/

structure RaftLogId where
  term : ℕ
  leaderNodeId : ℕ
  index : ℕ
deriving DecidableEq, Repr

namespace RaftLogId

def position (id : RaftLogId) : ℕ ×ₗ ℕ ×ₗ ℕ := toLex (id.index, toLex (id.term, id.leaderNodeId))

def hasReached (id required : RaftLogId) : Bool := required.position ≤ id.position

def debug (id : RaftLogId) : String :=
  s!"RaftLogId \x7b term: {id.term}, leader_node_id: {id.leaderNodeId}, index: {id.index} \x7d"

end RaftLogId

def LogId.toRaftLogId (id : LogId) : RaftLogId := ⟨id.term, id.nodeId, id.index⟩

structure GroupStateWatermark where
  groupName : GroupName
  stateId : RaftLogId
deriving DecidableEq

/-! ## The replica -/

structure Moment where
  db : Db
  /-- `AppMetadataRaftState` in memory. -/
  raftState : AppMetadataRaftState
  routeEpoch : MetadataResult ℕ
  isReady : Bool
  /-- The worker planned for a block, or whether its reports are of another run. -/
  placement : GroupName → BlockId → ℕ → FileLayout → Except Bool (List WorkerId)

namespace Moment

def lastApplied (m : Moment) : Option RaftLogId :=
  m.raftState.lastAppliedLogId.map LogId.toRaftLogId

def storedAt (m : Moment) : Option RaftLogId :=
  (m.db.raftState.bind AppMetadataRaftState.lastAppliedLogId).map LogId.toRaftLogId

/-- The stored data are those of the required log id, or later ones. -/
def HasApplied (required : RaftLogId) (m : Moment) : Prop :=
  ∃ id ∈ m.storedAt, id.hasReached required = true

def reads {α : Type} (m : Moment) (call : StorageM α) : MetadataResult α :=
  match (call m.db).1 with
  | .ok value => .ok value
  | .error (.failed error) => .error error
  | .error (.panicked message) => .error (.internal message)

end Moment

/-- An entry of the log is applied: its writes and the new apply state in one batch, and after
that the apply state in memory.  The other things in memory change at any time. -/
inductive ReplicaStep : Moment → Moment → Prop
  | apply {m : Moment} {db' : Db} {logId : LogId} {command : Command}
      {outcome : Except ApplyFailure CommittedApply}
      (hlater : ∀ id ∈ m.storedAt, logId.toRaftLogId.hasReached id = true)
      (hrun : applyCommitted command { m.raftState with lastAppliedLogId := some logId } m.db =
        (outcome, db')) :
      ReplicaStep m { m with db := db' }
  | advance {m : Moment} {db' : Db} {logId : LogId} {membership : StoredMembership}
      {outcome : Except Abort Unit}
      (hlater : ∀ id ∈ m.storedAt, logId.toRaftLogId.hasReached id = true)
      (hrun : commitAppliedState
        { m.raftState with lastAppliedLogId := some logId, membership := membership } m.db =
          (outcome, db')) :
      ReplicaStep m { m with db := db' }
  | publish {m : Moment} {raftState : AppMetadataRaftState}
      (hstored : m.db.raftState = some raftState) :
      ReplicaStep m { m with raftState := raftState }
  | other {m : Moment} (env : StorageEnv) (routeEpoch : MetadataResult ℕ) (isReady : Bool)
      (placement : GroupName → BlockId → ℕ → FileLayout → Except Bool (List WorkerId)) :
      ReplicaStep m
        { db := { m.db with env := env }, raftState := m.raftState, routeEpoch, isReady, placement }

/-- Whether a look is at stored data, at the applied log id or at other things in memory. -/
inductive LookKind
  | stored
  | applied
  | memory
deriving DecidableEq

abbrev ReadProgram := Program Moment LookKind

def readStorage {α : Type} (call : StorageM α) : ExceptT MetadataError ReadProgram α :=
  ExceptT.mk (Program.view .stored fun m => m.reads call)

def readMemory {ε α : Type} (f : Moment → α) : ExceptT ε ReadProgram α :=
  ExceptT.lift (Program.view .memory f)

def readApplied {ε : Type} : ExceptT ε ReadProgram (Option RaftLogId) :=
  ExceptT.lift (Program.view .applied Moment.lastApplied)

/-! ## Failures -/

inductive RpcErrorKind
  | notLeader
  | epochMismatch
  | mountEpochMismatch
  | routeEpochMismatch
  | staleState
  | fullReportRequired
  | fencing
  | nodeUnavailable
  | resourceExhausted
  | notFound
  | alreadyExists
  | invalidArgument
  | notDirectory
  | isDirectory
  | directoryNotEmpty
  | crossMountRename
  | permissionDenied
  | unsupported
  | busy
  | conflict
  | internal
  | runMismatch
  | blockLocationUnavailable
deriving DecidableEq, Repr

structure RpcErrorDetail where
  kind : RpcErrorKind
  message : String
deriving DecidableEq, Repr

def toRpcError : MetadataError → RpcErrorDetail
  | .leaderChanged message => ⟨.notLeader, message⟩
  | .epochMismatch expected got =>
    ⟨.epochMismatch, s!"epoch mismatch: expected {expected}, got {got}"⟩
  | .mountEpochMismatch expected got mountId =>
    ⟨.mountEpochMismatch, s!"mount epoch mismatch: expected {expected}, got {got} (mount_id=" ++
      debugOptionId "MountId" mountId ++ ")"⟩
  | .routingStale message => ⟨.routeEpochMismatch, message⟩
  | .staleState message => ⟨.staleState, message⟩
  | .fullReportRequired message => ⟨.fullReportRequired, message⟩
  | .leaseFenced expected got =>
    ⟨.fencing, s!"lease fenced: expected >= {expected}, got {got}"⟩
  | .serviceUnavailable message => ⟨.nodeUnavailable, s!"service unavailable: {message}"⟩
  | .writeSessionLimitExceeded message =>
    ⟨.resourceExhausted, s!"write-session limit exceeded: {message}"⟩
  | .globalWriteTargetLimitExceeded message =>
    ⟨.resourceExhausted, s!"global write-target limit exceeded: {message}"⟩
  | .resourceExhausted message => ⟨.resourceExhausted, s!"resource exhausted: {message}"⟩
  | .notFound message => ⟨.notFound, s!"not found: {message}"⟩
  | .alreadyExists message => ⟨.alreadyExists, s!"already exists: {message}"⟩
  | .invalidArgument message => ⟨.invalidArgument, s!"invalid argument: {message}"⟩
  | .notDir message => ⟨.notDirectory, s!"not a directory: {message}"⟩
  | .isDir message => ⟨.isDirectory, s!"is a directory: {message}"⟩
  | .directoryNotEmpty message => ⟨.directoryNotEmpty, s!"directory not empty: {message}"⟩
  | .crossMountRename message =>
    ⟨.crossMountRename, s!"cross-mount rename not allowed: {message}"⟩
  | .permissionDenied message => ⟨.permissionDenied, s!"permission denied: {message}"⟩
  | .notSupported message => ⟨.unsupported, s!"operation not supported: {message}"⟩
  | .busy message => ⟨.busy, s!"resource busy: {message}"⟩
  | .activeWorkerConflict message => ⟨.conflict, s!"active worker conflict: {message}"⟩
  | .again message => ⟨.conflict, s!"resource temporarily unavailable: {message}"⟩
  | .internal message => ⟨.internal, s!"internal error: {message}"⟩

structure FsFailure where
  error : RpcErrorDetail
  groupName : Option GroupName
  mountEpoch : Option ℕ
  routeEpoch : Option ℕ
deriving DecidableEq

structure FsSuccess (α : Type) where
  payload : α
  groupName : Option GroupName
  mountEpoch : Option ℕ
  routeEpoch : Option ℕ

abbrev ReadM := ExceptT FsFailure ReadProgram

structure RequestContext where
  groupName : Option GroupName
  mountEpoch : Option ℕ
  state : List GroupStateWatermark
  routeEpoch : Option ℕ

structure Freshness where
  mountEpoch : Option ℕ
  routeEpoch : Option ℕ

def fsFailureFromRpcError (ctx : RequestContext) (error : RpcErrorDetail)
    (groupName : Option GroupName) (mountEpoch routeEpoch : Option ℕ) : FsFailure :=
  ⟨error, groupName <|> ctx.groupName, mountEpoch, routeEpoch⟩

def fsFailureFromMetadataError (ctx : RequestContext) (error : MetadataError)
    (groupName : Option GroupName) (mountEpoch routeEpoch : Option ℕ) : FsFailure :=
  fsFailureFromRpcError ctx (toRpcError error) groupName mountEpoch routeEpoch

def failureFromResolvedPathError (ctx : RequestContext) (error : MetadataError)
    (mountCtx : Option MountContext) : FsFailure :=
  fsFailureFromMetadataError ctx error (mountCtx.map MountContext.ownerGroupName)
    (mountCtx.map MountContext.mountEpoch) none

def liftExcept {ε α : Type} (result : Except ε α) : ExceptT ε ReadProgram α :=
  ExceptT.mk (pure result)

/-- The outcome of a step whose error the handler turns into its own failure. -/
def orFailWith {α : Type} (x : ExceptT MetadataError ReadProgram α)
    (f : MetadataError → FsFailure) : ReadM α :=
  ExceptT.mk (x.run >>= fun result => pure (result.mapError f))

/-! ## Guards -/

/-- The parts of the service that do not change while a request runs. -/
structure ReadService where
  mountTable : OrderedTable MountId MountEntry
  hasWorkerManager : Bool

namespace ReadService

variable (service : ReadService)

def routing : Store := { Store.empty with mounts := service.mountTable }

def checkReadiness : ReadM Unit := do
  if ← readMemory Moment.isReady then pure ()
  else throw ⟨toRpcError (.serviceUnavailable "root mount not ready"), none, none, none⟩

def checkDataRead (mountId : MountId) : ReadM Unit := do
  checkReadiness
  match service.mountTable.get mountId with
  | none => throw ⟨toRpcError (mountNotFound mountId), none, none, none⟩
  | some entry =>
    if entry.dataIoPolicy ≠ .forbid then pure ()
    else
      throw ⟨⟨.unsupported, s!"MountDataIoForbidden: op=read mount_prefix={entry.mountPrefix}"⟩,
        some entry.namespaceOwnerGroupName, some entry.mountEpoch, none⟩

def mountHintsForMount (mountId : MountId) : Option GroupName × Option ℕ :=
  match service.mountTable.get mountId with
  | some entry => (some entry.namespaceOwnerGroupName, some entry.mountEpoch)
  | none => (none, none)

def validateMountEpoch (ctx : RequestContext) (freshness : Freshness) (mountId : MountId) :
    Except FsFailure (Option GroupName × Option ℕ) :=
  let (groupName, mountEpoch) := service.mountHintsForMount mountId
  match freshness.mountEpoch <|> ctx.mountEpoch, mountEpoch with
  | some client, some server =>
    if client ≠ server then
      .error (fsFailureFromRpcError ctx ⟨.mountEpochMismatch,
        s!"mount_epoch mismatch: client={client}, server={server}; refresh metadata and reopen write handle, then replay request"⟩
        groupName (some server) none)
    else .ok (groupName, mountEpoch)
  | _, _ => .ok (groupName, mountEpoch)

def validateRouteEpoch (ctx : RequestContext) (freshness : Freshness)
    (groupName : Option GroupName) (mountEpoch : Option ℕ) (intent : String) :
    ReadM (Option ℕ) := do
  match ← readMemory Moment.routeEpoch with
  | .error error => throw (fsFailureFromMetadataError ctx error groupName mountEpoch none)
  | .ok server =>
    match freshness.routeEpoch <|> ctx.routeEpoch with
    | some client =>
      if client ≠ server then
        throw (fsFailureFromRpcError ctx ⟨.routeEpochMismatch,
          s!"route_epoch mismatch: client={client}, server={server}; refresh route and replay {intent}"⟩
          groupName mountEpoch (some server))
      else pure (some server)
    | none => pure (some server)

inductive StaleStateStatus
  | ready
  | unknownLastApplied
deriving DecidableEq

/-- The log id that the request requires of a group: the first watermark of the group. -/
def requiredStateId (ctx : RequestContext) (groupName : GroupName) : Option RaftLogId :=
  (ctx.state.find? fun watermark => watermark.groupName = groupName).map
    GroupStateWatermark.stateId

def validateStaleState (ctx : RequestContext) (lastApplied : Option RaftLogId)
    (groupName : Option GroupName) (mountEpoch : Option ℕ) : Except FsFailure StaleStateStatus :=
  match groupName with
  | none => .ok .ready
  | some group =>
    match requiredStateId ctx group with
    | none => .ok .ready
    | some required =>
      match lastApplied with
      | none => .ok .unknownLastApplied
      | some applied =>
        if !applied.hasReached required then
          .error (fsFailureFromRpcError ctx ⟨.staleState,
            s!"Stale state: last_applied={applied.debug} < required={required.debug}"⟩
            (some group) mountEpoch none)
        else .ok .ready

def validateReadFreshnessForMount (ctx : RequestContext) (freshness : Freshness)
    (mountId : MountId) (intent : String) :
    ReadM (Option GroupName × Option ℕ × Option ℕ) := do
  let (groupName, mountEpoch) ← liftExcept (service.validateMountEpoch ctx freshness mountId)
  let routeEpoch ← validateRouteEpoch ctx freshness groupName mountEpoch intent
  let lastApplied ← readApplied
  match ← liftExcept (validateStaleState ctx lastApplied groupName mountEpoch) with
  | .ready => pure (groupName, mountEpoch, routeEpoch)
  | .unknownLastApplied =>
    throw (fsFailureFromRpcError ctx ⟨.staleState,
      "local applied state is unavailable for read freshness validation"⟩
      groupName mountEpoch routeEpoch)

/-! ## Paths -/

def walkDentryLooking (currentInodeId : InodeId) (ancestorInodeIds : List InodeId) :
    List String → ExceptT MetadataError ReadProgram (InodeId × List InodeId)
  | [] => pure (currentInodeId, ancestorInodeIds)
  | component :: rest => do
      match ← readStorage (getDentry currentInodeId component) with
      | none => throw (entryNotFound component currentInodeId)
      | some childInodeId =>
        walkDentryLooking childInodeId (ancestorInodeIds ++ [childInodeId]) rest

def resolvePathLooking (path : String) : ExceptT MetadataError ReadProgram ResolvedPath := do
  let (entry, components) ← liftExcept (resolveMount service.routing path)
  match components.getLast? with
  | none =>
    pure
      { mountCtx := entry.context, relativeComponents := [], parentInodeId := none,
        name := none, inodeId := some entry.rootInodeId,
        ancestorInodeIds := [entry.rootInodeId] }
  | some name => do
      let (parentInodeId, ancestorInodeIds) ←
        walkDentryLooking entry.rootInodeId [entry.rootInodeId] components.dropLast
      match ← readStorage (getInode parentInodeId) with
      | none => throw (.notFound s!"Parent inode not found: {parentInodeId}")
      | some parentInode =>
        if parentInode.fileType ≠ .dir then
          throw (.notDir s!"Parent is not a directory: {parentInodeId}")
        else do
          let inodeId ← readStorage (getDentry parentInodeId name)
          pure
            { mountCtx := entry.context, relativeComponents := components,
              parentInodeId := some parentInodeId, name := some name, inodeId,
              ancestorInodeIds := ancestorInodeIds ++ inodeId.toList }

def missingResolvedTargetError (resolved : ResolvedPath) : MetadataError :=
  match resolved.parentInodeId, resolved.name with
  | some parentInodeId, some name => entryNotFound name parentInodeId
  | _, _ => .notFound "resolved path has no target"

/-- The beginning of every handler that takes a path: the mount and the inode it names. -/
def resolveTarget (ctx : RequestContext) (path : String) : ReadM (MountContext × InodeId) := do
  let resolved ← orFailWith (service.resolvePathLooking path) fun error =>
    failureFromResolvedPathError ctx error
      ((resolveMountComponents service.routing path).toOption.map Prod.fst)
  match resolved.inodeId with
  | none =>
    throw (failureFromResolvedPathError ctx (missingResolvedTargetError resolved)
      (some resolved.mountCtx))
  | some inodeId => pure (resolved.mountCtx, inodeId)

def readTarget (ctx : RequestContext) (inodeId : InodeId) (missing : String) : ReadM Inode := do
  let found ← orFailWith (readStorage (getInode inodeId)) fun error =>
    fsFailureFromMetadataError ctx error none none none
  match found with
  | none => throw (fsFailureFromMetadataError ctx (.notFound missing) none none none)
  | some inode => pure inode

def debugFileType : FileType → String
  | .file => "File"
  | .dir => "Dir"

def corruptAuthority (what operation : String) (inodeId : InodeId) (inode : Inode) :
    MetadataError :=
  .internal (what ++ " authority is corrupt for " ++ operation ++ s!": key={inodeId}, value_id=" ++
    s!"{inode.inodeId}, kind={debugFileType inode.fileType}, payload=" ++
    debugFileType inode.fileType)

/-! ## Handlers -/

structure GetAttrOutput where
  kind : FileType
  attrs : InodeAttrs
  len : ℕ
deriving DecidableEq

def getAttrResolved (ctx : RequestContext) (inodeId : InodeId) (freshness : Freshness) :
    ReadM (FsSuccess GetAttrOutput) := do
  let inode ← readTarget ctx inodeId s!"Inode not found: {inodeId}"
  if inode.inodeId ≠ inodeId then
    throw (fsFailureFromMetadataError ctx (corruptAuthority "inode" "GetStatus" inodeId inode)
      none none none)
  else do
    let (groupName, mountEpoch, routeEpoch) ←
      service.validateReadFreshnessForMount ctx freshness inode.mountId "GetStatus"
    pure ⟨⟨inode.fileType, inode.attrs, inode.len⟩, groupName, mountEpoch, routeEpoch⟩

def getStatus (ctx : RequestContext) (path : String) (freshness : Freshness) :
    ReadM (FsSuccess GetAttrOutput) := do
  checkReadiness
  let (_, inodeId) ← service.resolveTarget ctx path
  service.getAttrResolved ctx inodeId freshness

structure ReadDirEntry where
  name : String
  status : GetAttrOutput
deriving DecidableEq

structure ReadDirOutput where
  entries : List ReadDirEntry
  nextCursorKey : Option (InodeId × String)
  eof : Bool

/-- The loop over the entries of a page: each dentry is joined with its inode. -/
def joinEntries (ctx : RequestContext) (parentInodeId : InodeId) (groupName : Option GroupName)
    (mountEpoch routeEpoch : Option ℕ) (joined : List ReadDirEntry) :
    List (String × InodeId) → ReadM (List ReadDirEntry)
  | [] => pure joined
  | (name, childInodeId) :: rest => do
      let found ← orFailWith (readStorage (getInode childInodeId)) fun error =>
        fsFailureFromMetadataError ctx error groupName mountEpoch routeEpoch
      match found with
      | none =>
        throw (fsFailureFromMetadataError ctx (.notFound (
          s!"Directory dentry '{name}' under parent inode {parentInodeId} points to missing " ++
          s!"inode {childInodeId}")) groupName mountEpoch routeEpoch)
      | some child =>
        if child.inodeId ≠ childInodeId then
          throw (fsFailureFromMetadataError ctx
            (corruptAuthority "child inode" "ListStatus" childInodeId child)
            groupName mountEpoch routeEpoch)
        else
          joinEntries ctx parentInodeId groupName mountEpoch routeEpoch
            (joined ++ [⟨name, ⟨child.fileType, child.attrs, child.len⟩⟩]) rest

def readDirResolved (ctx : RequestContext) (parentInodeId : InodeId)
    (cursorKey : Option DentryCursor) (maxEntries : ℕ) (freshness : Freshness) :
    ReadM (FsSuccess ReadDirOutput) := do
  let parent ← readTarget ctx parentInodeId s!"Parent inode not found: {parentInodeId}"
  if parent.inodeId ≠ parentInodeId then
    throw (fsFailureFromMetadataError ctx
      (corruptAuthority "inode" "ListStatus" parentInodeId parent) none none none)
  else if parent.fileType ≠ .dir then
    throw (fsFailureFromMetadataError ctx
      (.invalidArgument s!"Parent is not a directory: {parentInodeId}") none none none)
  else do
    let (groupName, mountEpoch, routeEpoch) ←
      service.validateReadFreshnessForMount ctx freshness parent.mountId "ListStatus"
    let (entries, nextCursorKey, eof) ←
      orFailWith (readStorage (listDentriesWithCursor parentInodeId cursorKey maxEntries))
        fun error => fsFailureFromMetadataError ctx error groupName mountEpoch none
    let joined ← joinEntries ctx parentInodeId groupName mountEpoch routeEpoch [] entries
    pure ⟨⟨joined, nextCursorKey, eof⟩, groupName, mountEpoch, routeEpoch⟩

def listStatus (ctx : RequestContext) (path : String) (cursorKey : Option DentryCursor)
    (maxEntries : ℕ) (freshness : Freshness) : ReadM (FsSuccess ReadDirOutput) := do
  checkReadiness
  let (_, inodeId) ← service.resolveTarget ctx path
  service.readDirResolved ctx inodeId cursorKey maxEntries freshness

structure FileRange where
  offset : ℕ
  len : ℕ

structure FileBlockLocation where
  blockId : BlockId
  fileOffset : ℕ
  len : ℕ
  workers : List WorkerId
  blockFormatId : BlockFormatId
  blockSize : ℕ
  chunkSize : ℕ
deriving DecidableEq

structure GetFileLayoutOutput where
  inodeId : InodeId
  fileSize : ℕ
  generation : ContentGeneration
  locations : List FileBlockLocation
deriving DecidableEq

def rangeBounds (file : FileData) : Option FileRange → Option (ℕ × ℕ)
  | none => some (0, file.len)
  | some range => (checkedAddU64 range.offset range.len).map fun last => (range.offset, last)

/-- The loop over the blocks from `ordinal` on.  Blocks outside the range are skipped; for the
others the workers are planned when the group is given. -/
def locateBlocks (ctx : RequestContext) (file : FileData) (chunkSize first last : ℕ)
    (workerGroup : Option GroupName) (groupName : Option GroupName)
    (mountEpoch routeEpoch : Option ℕ) (located : List FileBlockLocation) :
    ℕ → List BlockId → ReadM (List FileBlockLocation)
  | _, [] => pure located
  | ordinal, blockId :: rest => do
      let blockSize := file.layout.blockSize
      let fileOffset := ordinal * blockSize
      let effectiveLen := FilePublication.visibleBlockLen file.len blockSize ordinal
      if first = last ∨ fileOffset ≥ last ∨ fileOffset + effectiveLen ≤ first then
        locateBlocks ctx file chunkSize first last workerGroup groupName mountEpoch routeEpoch
          located (ordinal + 1) rest
      else
        match workerGroup with
        | none =>
          locateBlocks ctx file chunkSize first last workerGroup groupName mountEpoch routeEpoch
            (located ++ [⟨blockId, fileOffset, effectiveLen, [], file.layout.blockFormatId,
              blockSize, chunkSize⟩]) (ordinal + 1) rest
        | some group => do
            match ← readMemory fun m => m.placement group blockId effectiveLen file.layout with
            | .error otherRun =>
              throw (fsFailureFromRpcError ctx
                ⟨if otherRun then .runMismatch else .blockLocationUnavailable,
                  s!"no live replica holds the visible prefix of block " ++
                    s!"{blockId.inodeId}:{blockId.index}"⟩
                groupName mountEpoch routeEpoch)
            | .ok workers =>
              locateBlocks ctx file chunkSize first last workerGroup groupName mountEpoch
                routeEpoch
                (located ++ [⟨blockId, fileOffset, effectiveLen, workers,
                  file.layout.blockFormatId, blockSize, chunkSize⟩]) (ordinal + 1) rest

/-- The end of `get_file_layout_resolved`, once the file and its freshness are checked. -/
def fileLayoutOf (ctx : RequestContext) (inodeId : InodeId) (inode : Inode) (file : FileData)
    (range : Option FileRange) (groupName : Option GroupName) (mountEpoch routeEpoch : Option ℕ) :
    ReadM (FsSuccess GetFileLayoutOutput) := do
  let failed (error : MetadataError) :=
    fsFailureFromMetadataError ctx error groupName mountEpoch routeEpoch
  liftExcept ((file.validate inodeId).mapError failed)
  let chunkSize := match file.layout.blockFormatId.spec with
    | .ok spec => spec.storageChunkSize
    | .error _ => 0
  match rangeBounds file range with
  | none => throw (failed (.invalidArgument "range end overflows"))
  | some (first, last) => do
      let workerGroup ←
        if service.hasWorkerManager ∧ file.blocks ≠ [] ∧ first < last then
          match groupName with
          | none => throw (failed (.internal
              "GetFileLayout worker lookup requires authoritative metadata group"))
          | some group => pure (some group)
        else pure none
      let locations ← locateBlocks ctx file chunkSize first last workerGroup groupName mountEpoch
        routeEpoch [] 0 file.blocks
      pure ⟨⟨inodeId, inode.len, file.generation, locations⟩, groupName, mountEpoch, routeEpoch⟩

def getFileLayoutResolved (ctx : RequestContext) (inodeId : InodeId) (range : Option FileRange)
    (freshness : Freshness) : ReadM (FsSuccess GetFileLayoutOutput) := do
  let inode ← readTarget ctx inodeId s!"Inode not found: {inodeId}"
  if inode.inodeId ≠ inodeId then
    throw (fsFailureFromMetadataError ctx (corruptAuthority "inode" "GetFileLayout" inodeId inode)
      none none none)
  else
    match inode.kind with
    | .dir => throw (fsFailureFromMetadataError ctx
        (.isDir s!"Inode is not a file: {inodeId}") none none none)
    | .file file => do
        let (groupName, mountEpoch, routeEpoch) ←
          service.validateReadFreshnessForMount ctx freshness inode.mountId "GetFileLayout"
        service.fileLayoutOf ctx inodeId inode file range groupName mountEpoch routeEpoch

structure OpenFileOutput where
  inodeId : InodeId
  fileSize : ℕ
  generation : ContentGeneration
deriving DecidableEq

def openFile (ctx : RequestContext) (path : String) (freshness : Freshness) :
    ReadM (FsSuccess OpenFileOutput) := do
  checkReadiness
  let (mountCtx, inodeId) ← service.resolveTarget ctx path
  service.checkDataRead mountCtx.mountId
  let success ← service.getFileLayoutResolved ctx inodeId none freshness
  let layout := success.payload
  pure ⟨⟨inodeId, layout.fileSize, layout.generation⟩, success.groupName, success.mountEpoch,
    success.routeEpoch⟩

def planInodeMount (ctx : RequestContext) (inodeId : InodeId) : ReadM MountId := do
  let inode ← readTarget ctx inodeId s!"Inode not found: {inodeId}"
  if inode.inodeId ≠ inodeId then
    throw (fsFailureFromMetadataError ctx
      (corruptAuthority "inode" "GetBlockLocations" inodeId inode) none none none)
  else if inode.fileType ≠ .file then
    throw (fsFailureFromMetadataError ctx
      (.isDir s!"Inode is not a file: {inodeId}") none none none)
  else pure inode.mountId

inductive BlockLocationsTarget
  | path (path : String)
  | inodeId (inodeId : InodeId)

/-- The mount and the inode that `get_block_locations` is about. -/
def locationsTarget (ctx : RequestContext) : BlockLocationsTarget → ReadM (MountId × InodeId)
  | .path path => do
      let (mountCtx, inodeId) ← service.resolveTarget ctx path
      pure (mountCtx.mountId, inodeId)
  | .inodeId inodeId => do
      let mountId ← planInodeMount ctx inodeId
      pure (mountId, inodeId)

def getBlockLocations (ctx : RequestContext) (target : BlockLocationsTarget)
    (range : Option FileRange) (freshness : Freshness) :
    ReadM (FsSuccess GetFileLayoutOutput) := do
  checkReadiness
  let (mountId, inodeId) ← service.locationsTarget ctx target
  service.checkDataRead mountId
  service.getFileLayoutResolved ctx inodeId range freshness

/-! ## Requests -/

inductive ReadRequest
  | getStatus (path : String) (freshness : Freshness)
  | listStatus (path : String) (cursorKey : Option DentryCursor) (maxEntries : ℕ)
      (freshness : Freshness)
  | openFile (path : String) (freshness : Freshness)
  | getBlockLocations (target : BlockLocationsTarget) (range : Option FileRange)
      (freshness : Freshness)

def ReadRequest.Output : ReadRequest → Type
  | .getStatus _ _ => GetAttrOutput
  | .listStatus _ _ _ _ => ReadDirOutput
  | .openFile _ _ => OpenFileOutput
  | .getBlockLocations _ _ _ => GetFileLayoutOutput

def handle (ctx : RequestContext) :
    (request : ReadRequest) → ReadM (FsSuccess request.Output)
  | .getStatus path freshness => service.getStatus ctx path freshness
  | .listStatus path cursorKey maxEntries freshness =>
    service.listStatus ctx path cursorKey maxEntries freshness
  | .openFile path freshness => service.openFile ctx path freshness
  | .getBlockLocations target range freshness =>
    service.getBlockLocations ctx target range freshness

end ReadService

end Beryl
