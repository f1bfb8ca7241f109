import Beryl.Storage

/-!
# Reads of the authority storage

The queries that commands and path resolution make, with the checks the code
puts on the values it reads.
-/

namespace Beryl

def getInode (inodeId : InodeId) : StorageM (Option Inode) :=
  query (.readInode inodeId) fun s => s.inode inodeId

def getDentry (parentInodeId : InodeId) (name : String) :
    StorageM (Option InodeId) :=
  query (.readDentry parentInodeId name) fun s => s.dentry parentInodeId name

def getMount (mountId : MountId) : StorageM (Option MountEntry) :=
  query (.readMount mountId) fun s => s.mounts.get mountId

def listMounts : StorageM (List MountEntry) :=
  query .scanMounts fun s => s.mounts.entries.map Prod.snd

/-- The layout of a file inode, `none` for a missing inode or a directory. -/
def getLayoutOptional (inodeId : InodeId) : StorageM (Option FileLayout) := do
  match ← getInode inodeId with
  | none => pure none
  | some inode =>
    match inode.kind with
    | .dir => pure none
    | .file file =>
      match file.layout.validate with
      | .error error =>
        reject (.internal s!"invalid file layout: {error.display}")
      | .ok () => pure (some file.layout)

def getLayout (inodeId : InodeId) : StorageM FileLayout := do
  okOrElse (← getLayoutOptional inodeId)
    (.notFound s!"Layout not found for inode {inodeId}")

def getNextInodeId : StorageM (Option InodeId) :=
  query .readNextInodeId fun s => s.nextInodeId

def Store.lastInodeKey (s : Store) : Option InodeId :=
  s.inodes.entries.getLast?.map Prod.fst

def maxInodeId : StorageM (Option InodeId) := do
  match ← query .seekLastInode Store.lastInodeKey with
  | none => pure none
  | some inodeId => do
      rejectIf (inodeId = 0)
        (.internal "inode authority contains zero at the allocator high watermark")
      pure (some inodeId)

structure InodeAllocation where
  inodeId : InodeId
  nextInodeId : InodeId
deriving DecidableEq, Repr

/-- `prepare_inode_allocation`: read the allocator without consuming an id. -/
def prepareInodeAllocation : StorageM InodeAllocation := do
  let inodeId ← okOrElse (← getNextInodeId) (.internal
    "next_inode_id allocator authority is missing; reformat metadata storage")
  rejectIf (inodeId < 2) (.internal
    s!"next_inode_id allocator authority is invalid: {inodeId}; reformat metadata storage")
  let maxInodeId ← okOrElse (← maxInodeId) (.internal
    "next_inode_id allocator exists without inode authority; reformat metadata storage")
  let notAhead : MetadataError := .internal
    s!"next_inode_id allocator {inodeId} is not ahead of inode authority {maxInodeId}; reformat metadata storage"
  rejectIf (inodeId ≤ maxInodeId) notAhead
  let existing ← getInode inodeId
  rejectIf (existing.isSome = true) notAhead
  let nextRaw ← okOrElse (checkedAddU64 inodeId 1)
    (.internal "inode ID allocator overflow")
  pure ⟨inodeId, nextRaw⟩

inductive BootstrapNamespaceState
  | empty
  | matching
  | conflicting
deriving DecidableEq, Repr

def rootInodeMatches (root : Option Inode) : Bool :=
  match root with
  | none => false
  | some inode =>
    inode.inodeId = rootInodeId && inode.fileType = .dir &&
      inode.kind = .dir && inode.mountId = rootMountId

def rootMountMatches (groupName : GroupName) (mounts : List MountEntry) : Bool :=
  match mounts with
  | [mount] =>
    mount.mountId = rootMountId && mount.mountPrefix = rootMountPrefix &&
      mount.mountKind = .internal && mount.ufsUri = none &&
      mount.dataIoPolicy = .allow && mount.mountEpoch = 1 &&
      mount.namespaceOwnerGroupName = groupName && mount.rootInodeId = rootInodeId
  | _ => false

def bootstrapNamespaceState (expectedGroupName : GroupName) :
    StorageM BootstrapNamespaceState := do
  let rootInode ← getInode rootInodeId
  let mounts ← listMounts
  let routeEpoch ← query .readRouteEpoch fun s => s.routeEpoch
  let mountEpoch ← query .readMountEpoch fun s => s.mountEpoch
  let nextInode ← getNextInodeId
  let hasScalars := rootInode.isSome || mounts ≠ [] || routeEpoch.isSome ||
    mountEpoch.isSome || nextInode.isSome
  -- the high watermark is read only when nothing else shows a namespace
  let namespaceHasAnyState ←
    if hasScalars then pure true else do pure (← maxInodeId).isSome
  if !namespaceHasAnyState then pure .empty
  else if rootInodeMatches rootInode && rootMountMatches expectedGroupName mounts then do
    let highest ← maxInodeId
    if highest = some rootInodeId ∧ routeEpoch = some 1 ∧ mountEpoch = some 1 ∧
        nextInode = some 2 then
      pure .matching
    else pure .conflicting
  else pure .conflicting

def getDetachedRoot (inodeId : InodeId) : StorageM (Option DetachedRoot) := do
  match ← query (.readDetachedRoot inodeId) fun s => s.marker inodeId with
  | none => pure none
  | some root => do
      rejectIf (root.mountId = 0)
        (.internal s!"DetachedRoot for inode {inodeId} has zero mount ID")
      pure (some root)

def decodeDetachedRoots : List (InodeId × DetachedRoot) →
    MetadataResult (List (InodeId × DetachedRoot))
  | [] => .ok []
  | (inodeId, root) :: rest =>
    if inodeId = 0 then
      .error (.internal "Detached-root inode ID must be non-zero")
    else if root.mountId = 0 then
      .error (.internal s!"DetachedRoot for inode {inodeId} has zero mount ID")
    else
      match decodeDetachedRoots rest with
      | .error error => .error error
      | .ok roots => .ok ((inodeId, root) :: roots)

/-- `list_dentries_for_reclaim`: the first entries and whether they are all. -/
def listDentriesForReclaim (parentInodeId : InodeId) (maxEntries : ℕ) :
    StorageM (List (String × InodeId) × Bool) := do
  rejectIf (maxEntries = 0) (.invalidArgument
    "detached-root dentry scan requires a positive entry limit")
  let entries ← query (.scanDentries parentInodeId) fun s =>
    s.dentriesUnder parentInodeId
  pure (entries.take maxEntries, decide (entries.length ≤ maxEntries))

/-- A listing cursor as the client sends it: the decoded key, if it decodes. -/
structure DentryCursor where
  decoded : Option (InodeId × String)
deriving DecidableEq, Repr

/-- A page: its entries, the cursor of the next page, and end of directory. -/
abbrev DentryPage :=
  List (String × InodeId) × Option (InodeId × String) × Bool

def collectDentryPage (parentInodeId : InodeId) (maxEntries : ℕ)
    (page : List (String × InodeId)) :
    List (String × InodeId) → MetadataResult DentryPage
  | [] => .ok (page, none, true)
  | (name, child) :: rest =>
    if name = "" then
      .error (.internal s!"Malformed dentry under parent inode {parentInodeId}")
    else if (page ++ [(name, child)]).length = maxEntries then
      .ok (page ++ [(name, child)],
        if rest = [] then none else some (parentInodeId, name), decide (rest = []))
    else
      collectDentryPage parentInodeId maxEntries (page ++ [(name, child)]) rest

/-- The name a cursor excludes, `none` at the start of the directory. -/
def cursorName (parentInodeId : InodeId) :
    Option DentryCursor → MetadataResult (Option String)
  | none => .ok none
  | some cursor =>
    match cursor.decoded with
    | some (cursorParent, name) =>
      if cursorParent = parentInodeId ∧ name ≠ "" then .ok (some name)
      else .error (.invalidArgument
        "ListStatus cursor does not belong to the requested directory")
    | none => .error (.invalidArgument
        "ListStatus cursor does not belong to the requested directory")

def listDentriesWithCursor (parentInodeId : InodeId)
    (cursorKey : Option DentryCursor) (maxEntries : ℕ) :
    StorageM DentryPage := do
  rejectIf (maxEntries = 0)
    (.invalidArgument "ListStatus page size must be positive")
  let after ← ofResult (cursorName parentInodeId cursorKey)
  let entries ← query (.scanDentries parentInodeId) fun s =>
    (s.dentriesUnder parentInodeId).filter fun entry =>
      match after with
      | none => true
      | some name => name < entry.1
  ofResult (collectDentryPage parentInodeId maxEntries [] entries)

def isDirectoryEmpty (parentInodeId : InodeId) : StorageM Bool := do
  let page ← listDentriesWithCursor parentInodeId none 1
  pure page.1.isEmpty

def getCreateFileReplay (operationId : CreateFileOperationId) :
    StorageM (Option CreateFileReplayRecord) := do
  match ← query (.readReplay operationId) fun s =>
      s.createFileReplay.get operationId.key with
  | none => pure none
  | some record => do
      rejectIf (record.operationId ≠ operationId)
        (.internal "CreateFile replay record identity is corrupt")
      pure (some record)

def getCreateFileReplayForInode (inodeId : InodeId) :
    StorageM (Option CreateFileReplayRecord) := do
  match ← query (.readReplayInode inodeId) fun s =>
      s.createFileReplayInode.get inodeId with
  | none => pure none
  | some operationId => do
      let record ← okOrElse (← getCreateFileReplay operationId)
        (.internal "CreateFile inode replay index has no record")
      rejectIf (record.inodeId ≠ inodeId)
        (.internal "CreateFile inode replay index names another inode")
      pure (some record)

/-- A registered descriptor before its worker has sent a heartbeat. -/
def newWorkerInfo (groupName : GroupName) (workerId : WorkerId) (address : String)
    (workerNetProtocol : ℤ) (faultDomain : Option String) : WorkerInfo :=
  { groupName, workerId, address, workerNetProtocol, capacityTotal := 0,
    capacityUsed := 0, capacityAvailable := 0, activeReads := 0,
    activeWrites := 0, health := .healthy, lastHeartbeat := 0, faultDomain }

def prepareWorkerRegistration (groupName : GroupName) (workerId : WorkerId)
    (address : String) (workerNetProtocol : ℤ) (faultDomain : Option String) :
    StorageM WorkerInfo := do
  rejectIf (workerId = 0)
    (.invalidArgument "worker_id must be non-zero for registration")
  pure (newWorkerInfo groupName workerId address workerNetProtocol faultDomain)

end Beryl
