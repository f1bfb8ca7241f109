import Beryl.PathResolver

/-!
# Commands that a leader builds

The filesystem service resolves a client path against the leader's store and
proposes one command.  Nothing holds the command to that store: any number of
other commands may be applied before it is.  Leadership, readiness, client epochs
and the leader's session registry can only refuse a request; they are left out, so
that every command the service can propose is among those built here.
-/

namespace Beryl

structure RoutedFsWriteCtx where
  mountId : MountId
  mountRootInodeId : InodeId
  groupName : GroupName
  mountEpoch : ℕ
deriving DecidableEq

namespace MetadataFileSystem

def checkSameMount (s : Store) (mountId : MountId) : List InodeId → MetadataResult Unit
  | [] => .ok ()
  | otherParent :: rest =>
    match s.inode otherParent with
    | none => .error (.notFound s!"Parent inode not found: {otherParent}")
    | some inode =>
      if inode.mountId ≠ mountId then
        .error (.crossMountRename "cross-mount operation is not allowed")
      else checkSameMount s mountId rest

def routeFsWriteCtx (s : Store) (parentInodeIds : List InodeId) :
    MetadataResult RoutedFsWriteCtx :=
  match parentInodeIds with
  | [] => .error (.invalidArgument "No parent inode provided")
  | parentInodeId :: others =>
    match s.inode parentInodeId with
    | none => .error (.notFound s!"Parent inode not found: {parentInodeId}")
    | some parentInode =>
      match checkSameMount s parentInode.mountId others with
      | .error error => .error error
      | .ok () =>
        match s.mounts.get parentInode.mountId with
        | none => .error (mountNotFound parentInode.mountId)
        | some entry => .ok
            { mountId := parentInode.mountId
              mountRootInodeId := entry.rootInodeId
              groupName := entry.namespaceOwnerGroupName
              mountEpoch := entry.mountEpoch }

def proposeRouted (s : Store) (parentInodeIds : List InodeId) (command : Command) :
    MetadataResult Command :=
  match routeFsWriteCtx s parentInodeIds with
  | .error error => .error error
  | .ok _ => .ok command

def createDirectoryOnce (s : Store) (path : String) (proposedAtMs : ℕ) :
    MetadataResult Command :=
  match resolvePath s path with
  | .error error => .error error
  | .ok resolved =>
    match resolved.parentInodeId, resolved.name with
    | some parentInodeId, some name =>
      proposeRouted s [parentInodeId]
        (.createDirectory proposedAtMs parentInodeId [name] .new false)
    | _, _ => .error (.invalidArgument "Cannot operate on mount root")

def createDirectoryRecursive (s : Store) (path : String) (proposedAtMs : ℕ) :
    MetadataResult Command :=
  match resolveMountComponents s path with
  | .error error => .error error
  | .ok (mountCtx, components) =>
    if components = [] then .error (.invalidArgument "Cannot operate on mount root")
    else
      proposeRouted s [mountCtx.rootInodeId]
        (.createDirectory proposedAtMs mountCtx.rootInodeId components .new true)

def createDirectory (s : Store) (path : String) (recursive : Bool) (proposedAtMs : ℕ) :
    MetadataResult Command :=
  match normalize path with
  | .error error => .error error
  | .ok path =>
    if recursive then createDirectoryRecursive s path proposedAtMs
    else createDirectoryOnce s path proposedAtMs

def expectedDstLeaseEpoch (s : Store) : Option InodeId → Option LeaseEpoch
  | none => none
  | some dstInodeId =>
    match s.inode dstInodeId with
    | none => none
    | some inode =>
      match inode.kind with
      | .file file => some file.leaseEpoch
      | .dir => none

/-- `execute_rename`, up to the proposal: both parents must exist in one mount.
Nothing compares the destination with the moved inode. -/
def executeRename (s : Store) (srcParentInodeId dstParentInodeId : InodeId)
    (flags : UInt32) (command : Command) : MetadataResult Command :=
  if flags &&& ~~~(1 : UInt32) ≠ 0 then
    .error (.notSupported s!"Unsupported rename flags: {flags}")
  else
    match s.inode srcParentInodeId with
    | none => .error (.notFound s!"Source parent inode not found: {srcParentInodeId}")
    | some srcParent =>
      match s.inode dstParentInodeId with
      | none => .error (.notFound
          s!"Destination parent inode not found: {dstParentInodeId}")
      | some dstParent =>
        if srcParent.mountId ≠ dstParent.mountId then
          .error (crossMountRename srcParent.mountId dstParent.mountId)
        else proposeRouted s [srcParentInodeId, dstParentInodeId] command

def renameResolved (s : Store) (srcPath : String) (src dst : ResolvedPath)
    (flags : UInt32) (proposedAtMs : ℕ) : MetadataResult Command :=
  match src.parentInodeId, src.name with
  | some srcParentInodeId, some srcName =>
    match src.inodeId with
    | none => .error (.notFound s!"Source not found: {srcPath}")
    | some expectedSrcInodeId =>
      match dst.parentInodeId, dst.name with
      | some dstParentInodeId, some dstName =>
        executeRename s srcParentInodeId dstParentInodeId flags
          (.rename proposedAtMs srcParentInodeId srcName expectedSrcInodeId
            dstParentInodeId dstName dst.inodeId (expectedDstLeaseEpoch s dst.inodeId) flags)
      | _, _ => .error (.invalidArgument "Cannot rename to a mount root")
  | _, _ => .error (.invalidArgument "Cannot rename a mount root")

def rename (s : Store) (srcPath dstPath : String) (flags : UInt32) (proposedAtMs : ℕ) :
    MetadataResult Command :=
  match normalize srcPath with
  | .error error => .error error
  | .ok srcPath =>
    match normalize dstPath with
    | .error error => .error error
    | .ok dstPath =>
      match resolveRename s srcPath dstPath with
      | .error error => .error error
      | .ok (src, dst) => renameResolved s srcPath src dst flags proposedAtMs

/-- The part of a `CreateFile` request that does not come from its path. -/
structure CreateFileRequest where
  proposedAtMs : ℕ
  operationId : CreateFileOperationId
  requestDeadlineMs : ℕ
  sessionExpiresAtMs : ℕ
  layout : FileLayout

def validateActiveWriteLayout (layout : FileLayout) : MetadataResult Unit :=
  match layout.validate with
  | .error error => .error (.invalidArgument s!"invalid file layout: {error.display}")
  | .ok () => .ok ()

def createResolved (s : Store) (request : CreateFileRequest) (normalizedPath : String)
    (relativeComponents : List String) (parentInodeId : InodeId) :
    MetadataResult Command :=
  match validateActiveWriteLayout request.layout with
  | .error error => .error error
  | .ok () =>
    match routeFsWriteCtx s [parentInodeId] with
    | .error error => .error error
    | .ok ctx => .ok (.createFile request.proposedAtMs request.operationId
        request.requestDeadlineMs request.sessionExpiresAtMs normalizedPath ctx.mountId
        ctx.mountEpoch ctx.mountRootInodeId relativeComponents .new request.layout)

/-- The ancestors of the parent: those of the path without its own inode. -/
def parentAncestors (resolved : ResolvedPath) : List InodeId :=
  if resolved.inodeId.isSome then resolved.ancestorInodeIds.dropLast
  else resolved.ancestorInodeIds

def createFile (s : Store) (path : String) (request : CreateFileRequest) :
    MetadataResult Command :=
  match normalize path with
  | .error error => .error error
  | .ok path =>
    match resolvePath s path with
    | .error error => .error error
    | .ok resolved =>
      match resolved.parentInodeId, resolved.name with
      | some parentInodeId, some _ =>
        if (parentAncestors resolved).getLast? ≠ some parentInodeId then
          .error (.internal "CreateFile resolved parent chain is inconsistent")
        else
          createResolved s request path resolved.relativeComponents parentInodeId
      | _, _ => .error (.invalidArgument "Cannot operate on mount root")

def deleteResolved (s : Store) (parentInodeId : InodeId)
    (relativeComponents : List String) (expectedInodeId : InodeId) (recursive : Bool)
    (proposedAtMs : ℕ) : MetadataResult Command :=
  match routeFsWriteCtx s [parentInodeId] with
  | .error error => .error error
  | .ok ctx =>
    match s.inode expectedInodeId with
    | none => .error (.notFound s!"Delete target inode not found: {expectedInodeId}")
    | some inode =>
      let expectedFileLeaseEpoch :=
        match inode.kind with
        | .file file => some file.leaseEpoch
        | .dir => none
      .ok (.delete proposedAtMs ctx.mountId ctx.mountEpoch ctx.mountRootInodeId
        relativeComponents expectedInodeId expectedFileLeaseEpoch recursive)

def delete (s : Store) (path : String) (recursive : Bool) (proposedAtMs : ℕ) :
    MetadataResult Command :=
  match normalize path with
  | .error error => .error error
  | .ok path =>
    match resolvePath s path with
    | .error error => .error error
    | .ok resolved =>
      match resolved.parentInodeId, resolved.name with
      | some parentInodeId, some _ =>
        match resolved.inodeId with
        | none => .error (.notFound s!"Entry not found: {path}")
        | some targetInodeId =>
          deleteResolved s parentInodeId resolved.relativeComponents targetInodeId
            recursive proposedAtMs
      | _, _ => .error (.invalidArgument "Cannot operate on mount root")

end MetadataFileSystem

/-- The reclaimer's budgets, as configuration validation accepts them. -/
structure NamespaceDeleteConfig where
  maxCandidates : ℕ
  maxEntries : ℕ
  maxBatchBytes : ℕ
  candidates_pos : 0 < maxCandidates
  candidates_le : maxCandidates ≤ maxReclaimDetachedRootCandidates
  entries_pos : 0 < maxEntries
  entries_le : maxEntries ≤ maxReclaimDetachedRootEntries
  le_bytes : minReclaimDetachedRootBatchBytes ≤ maxBatchBytes
  bytes_le : maxBatchBytes ≤ maxReclaimDetachedRootBatchBytes

/-- `reclaim_once`, up to the proposal: the first page of markers, if there are
any. -/
def reclaimOnce (s : Store) (config : NamespaceDeleteConfig) :
    MetadataResult (Option Command) :=
  match decodeDetachedRoots (s.detachedRoots.entries.take config.maxCandidates) with
  | .error error => .error error
  | .ok roots =>
    if roots = [] then .ok none
    else .ok (some (.reclaimDetachedRoots (roots.map Prod.fst) config.maxEntries
      config.maxBatchBytes))

/-- The commands that a leader can build while its store is `s`.  A write session
belongs to an inode that was a file when the session was opened. -/
inductive LeaderBuilt (s : Store) : Command → Prop
  | bootstrapNamespace {t : ℕ} {groupName : GroupName} :
      LeaderBuilt s (.bootstrapNamespace t groupName)
  | registerWorkerDescriptor {t : ℕ} {groupName : GroupName} {workerId : WorkerId}
      {address : String} {protocol : ℤ} {domain : Option String} :
      LeaderBuilt s
        (.registerWorkerDescriptor t groupName workerId address protocol domain)
  | createDirectory {path : String} {recursive : Bool} {t : ℕ} {command : Command}
      (hbuilt : MetadataFileSystem.createDirectory s path recursive t = .ok command) :
      LeaderBuilt s command
  | createFile {path : String} {request : MetadataFileSystem.CreateFileRequest}
      {command : Command}
      (hbuilt : MetadataFileSystem.createFile s path request = .ok command) :
      LeaderBuilt s command
  | delete {path : String} {recursive : Bool} {t : ℕ} {command : Command}
      (hbuilt : MetadataFileSystem.delete s path recursive t = .ok command) :
      LeaderBuilt s command
  | rename {srcPath dstPath : String} {flags : UInt32} {t : ℕ} {command : Command}
      (hbuilt : MetadataFileSystem.rename s srcPath dstPath flags t = .ok command) :
      LeaderBuilt s command
  | acquireWriteLease {t : ℕ} {i : InodeId} {inode : Inode} {file : FileData}
      (hinode : s.inode i = some inode) (hfile : inode.file = .ok file) :
      LeaderBuilt s (.acquireWriteLease t i file.leaseEpoch)
  | allocateBlock {i : InodeId} {inode : Inode} {file : FileData} {epoch : LeaseEpoch}
      (hinode : s.inode i = some inode) (hfile : inode.file = .ok file) :
      LeaderBuilt s (.allocateBlock i epoch)
  | endWriteLease {t : ℕ} {i : InodeId} {inode : Inode} {file : FileData}
      {epoch : LeaseEpoch} (hinode : s.inode i = some inode)
      (hfile : inode.file = .ok file) : LeaderBuilt s (.endWriteLease t i epoch)
  | endReplayedLease {t : ℕ} {i : InodeId} {operationId : CreateFileOperationId}
      {record : CreateFileReplayRecord}
      (hindex : s.createFileReplayInode.get i = some operationId)
      (hrecord : s.createFileReplay.get operationId.key = some record) :
      LeaderBuilt s (.endWriteLease t i record.leaseEpoch)
  | publishFile {t : ℕ} {i : InodeId} {inode : Inode} {file : FileData}
      {publication : FilePublication} (hinode : s.inode i = some inode)
      (hfile : inode.file = .ok file) : LeaderBuilt s (.publishFile t i publication)
  | commitFile {t : ℕ} {i : InodeId} {inode : Inode} {file : FileData}
      {clientId : ClientId} {callId : CallId} {publication : FilePublication}
      (hinode : s.inode i = some inode) (hfile : inode.file = .ok file) :
      LeaderBuilt s (.commitFile t i clientId callId publication)
  | reclaimDetachedRoots {config : NamespaceDeleteConfig} {command : Command}
      (hbuilt : reclaimOnce s config = .ok (some command)) : LeaderBuilt s command

end Beryl
