import Beryl.Command
import Beryl.StorageTransactions

/-!
# Applying namespace commands

Bootstrap, directory and file creation, delete and rename.  Every function
reads and checks first and ends in at most one commit.
-/

namespace Beryl

def mutationTimestamp (inode : Inode) (proposedAtMs : ℕ) : ℕ :=
  max proposedAtMs inode.attrs.modifyTime

def touchParent (parent : Inode) (proposedAtMs : ℕ) : Inode :=
  { parent with
    attrs := parent.attrs.setModifyTime (mutationTimestamp parent proposedAtMs) }

/-! ## Bootstrap -/

def rootMountEntry (groupName : GroupName) : MountEntry where
  mountId := rootMountId
  mountPrefix := rootMountPrefix
  mountKind := .internal
  ufsUri := none
  dataIoPolicy := .allow
  mountEpoch := 1
  namespaceOwnerGroupName := groupName
  rootInodeId := rootInodeId

def rootInode (proposedAtMs : ℕ) : Inode :=
  Inode.newDir rootInodeId (InodeAttrs.initializeAt .new proposedAtMs) rootMountId

def applyBootstrapNamespace (groupName : GroupName) (proposedAtMs : ℕ)
    (raftState : AppMetadataRaftState) : StorageM MountEntry := do
  let state ← bootstrapNamespaceState groupName
  rejectIf (state = .conflicting) (.invalidArgument
    "metadata namespace is partially initialized or conflicts with writable root bootstrap; reformat metadata storage")
  if state = .matching then do
    commitAppliedState raftState
    pure (rootMountEntry groupName)
  else do
    bootstrapNamespaceAtomic (rootInode proposedAtMs) (rootMountEntry groupName)
      raftState
    pure (rootMountEntry groupName)

/-! ## Directories -/

def applyMkdir (parentInodeId : InodeId) (name : String) (attrs : InodeAttrs)
    (proposedAtMs : ℕ) (raftState : AppMetadataRaftState) :
    StorageM (InodeId × InodeAttrs) := do
  let parentInode ← okOrElse (← getInode parentInodeId)
    (.notFound s!"Parent inode not found: {parentInodeId}")
  rejectIf (parentInode.fileType ≠ .dir)
    (.notDir s!"Parent is not a directory: {parentInodeId}")
  let existing ← getDentry parentInodeId name
  rejectIf (existing.isSome = true)
    (.alreadyExists s!"Directory already exists: {name}")
  let allocation ← prepareInodeAllocation
  let inode := Inode.newDir allocation.inodeId
    (InodeAttrs.initializeAt attrs proposedAtMs) parentInode.mountId
  createDirAtomic allocation parentInodeId name inode
    (touchParent parentInode proposedAtMs) raftState
  pure (inode.inodeId, inode.attrs)

/-- The component loop of `apply_create_directory`: existing directories are
entered, missing ones are planned with the next free id. -/
def planDirectories (attrs : InodeAttrs) (proposedAtMs : ℕ) (parent : Inode)
    (nextRaw : ℕ) (entries : List RecursiveMkdirEntry) :
    List String → StorageM (Inode × ℕ × List RecursiveMkdirEntry)
  | [] => pure (parent, nextRaw, entries)
  | name :: rest => do
      match ← getDentry parent.inodeId name with
      | some childInodeId => do
          let child ← okOrElse (← getInode childInodeId)
            (.notFound s!"Target inode not found: {childInodeId}")
          rejectIf (child.fileType ≠ .dir)
            (.notDir s!"Path component is not a directory: {name}")
          planDirectories attrs proposedAtMs child nextRaw entries rest
      | none => do
          let next ← okOrElse (checkedAddU64 nextRaw 1)
            (.internal "inode ID allocator overflow")
          let child := Inode.newDir nextRaw
            (InodeAttrs.initializeAt attrs proposedAtMs) parent.mountId
          let entry : RecursiveMkdirEntry :=
            { parentInodeId := parent.inodeId, name, inode := child,
              updatedParent := touchParent parent proposedAtMs }
          planDirectories attrs proposedAtMs child next (entries ++ [entry]) rest

def applyCreateDirectory (rootInodeId : InodeId) (components : List String)
    (attrs : InodeAttrs) (proposedAtMs : ℕ) (raftState : AppMetadataRaftState) :
    StorageM (InodeId × InodeAttrs) := do
  rejectIf (components = [] ∨ "" ∈ components)
    (.invalidArgument "CreateDirectory requires non-empty path components")
  let root ← okOrElse (← getInode rootInodeId)
    (.notFound s!"Root inode not found: {rootInodeId}")
  rejectIf (root.fileType ≠ .dir)
    (.notDir s!"Root is not a directory: {rootInodeId}")
  let allocation ← prepareInodeAllocation
  let (last, nextRaw, entries) ←
    planDirectories attrs proposedAtMs root allocation.inodeId [] components
  if entries = [] then commitAppliedState raftState
  else
    createDirectoriesAtomic { allocation with nextInodeId := nextRaw } entries
      raftState
  pure (last.inodeId, last.attrs)

/-! ## Path components carried by commands -/

def maxPathBytes : ℕ := 4096
def maxPathComponentBytes : ℕ := 255
def maxPathComponents : ℕ := 256

def checkRelativeComponents (operation : String) :
    List String → MetadataResult Unit
  | [] => .ok ()
  | component :: rest =>
    if component = "" ∨ '/' ∈ component.toList ∨ '\x00' ∈ component.toList then
      .error (.invalidArgument s!"{operation} path contains an invalid component")
    else if component.utf8ByteSize > maxPathComponentBytes then
      .error (.invalidArgument
        s!"{operation} path component exceeds {maxPathComponentBytes} bytes")
    else checkRelativeComponents operation rest

def validateRelativeComponents (operation : String)
    (relativeComponents : List String) : MetadataResult Unit :=
  if relativeComponents = [] then
    .error (.invalidArgument s!"{operation} cannot target a mount root")
  else if relativeComponents.length > maxPathComponents then
    .error (.invalidArgument
      s!"{operation} path exceeds {maxPathComponents} components")
  else checkRelativeComponents operation relativeComponents

/-! ## Files -/

def entryNotFound (component : String) (parentInodeId : InodeId) : MetadataError :=
  .notFound s!"Entry not found: {component} (parent inode: {parentInodeId})"

def mountNotFound (mountId : MountId) : MetadataError :=
  .notFound ("Mount not found: " ++ debugId "MountId" mountId)

def walkCreateParent (mountId : MountId) (parent : Inode) :
    List String → StorageM Inode
  | [] => pure parent
  | component :: rest => do
      let childInodeId ← okOrElse (← getDentry parent.inodeId component)
        (entryNotFound component parent.inodeId)
      let child ← okOrElse (← getInode childInodeId)
        (.notFound s!"Child inode not found: {childInodeId}")
      rejectIf (child.inodeId ≠ childInodeId ∨ child.mountId ≠ mountId)
        (.internal "CreateFile parent path authority is corrupt")
      rejectIf (child.fileType ≠ .dir)
        (.notDir s!"Path component is not a directory: {component}")
      walkCreateParent mountId child rest

/-- `resolve_create_parent`: the parent, its inode, and the terminal name. -/
def resolveCreateParent (mountId : MountId) (expectedMountEpoch : ℕ)
    (mountRootInodeId : InodeId) (relativeComponents : List String) :
    StorageM (InodeId × String × Inode) := do
  ofResult (validateRelativeComponents "CreateFile" relativeComponents)
  let mount ← okOrElse (← getMount mountId)
    (mountNotFound mountId)
  rejectIf (mount.mountEpoch ≠ expectedMountEpoch ∨ mount.rootInodeId ≠ mountRootInodeId)
    (.again ("CreateFile mount precondition changed for " ++ debugId "MountId" mountId))
  let root ← okOrElse (← getInode mountRootInodeId)
    (.notFound s!"Mount root inode not found: {mountRootInodeId}")
  rejectIf (root.inodeId ≠ mountRootInodeId ∨ root.mountId ≠ mountId ∨ root.fileType ≠ .dir)
    (.internal "CreateFile mount root authority is corrupt")
  match relativeComponents.getLast? with
  | none =>
    Transaction.fail
      (.panicked "validated CreateFile path has a terminal component")
  | some name => do
      let parent ← walkCreateParent mountId root relativeComponents.dropLast
      pure (parent.inodeId, name, parent)

def validateCreateFileReplay (record : CreateFileReplayRecord)
    (proposedAtMs : ℕ) : StorageM Unit := do
  rejectIf (record.expiresAtMs ≤ proposedAtMs)
    (.again "replayed CreateFile write session has expired")
  let (parentInodeId, name, _) ← resolveCreateParent record.mountId
    record.expectedMountEpoch record.mountRootInodeId record.relativeComponents
  rejectIf (parentInodeId ≠ record.parentInodeId ∨ name ≠ record.name)
    (.again "replayed CreateFile path authority changed")
  let target ← getDentry record.parentInodeId record.name
  rejectIf (target ≠ some record.inodeId) (.alreadyExists
    "replayed CreateFile target no longer names its original inode")
  let inode ← okOrElse (← getInode record.inodeId)
    (.notFound s!"CreateFile inode not found: {record.inodeId}")
  rejectIf (inode.inodeId ≠ record.inodeId ∨ inode.mountId ≠ record.mountId ∨
      inode.fileType ≠ .file)
    (.internal "replayed CreateFile inode authority is corrupt")
  match inode.kind with
  | .dir =>
    reject (.internal "replayed CreateFile inode payload is not a file")
  | .file file => do
      rejectIf (file.leaseEpoch ≠ record.leaseEpoch)
        (.leaseFenced file.leaseEpoch record.leaseEpoch)
      rejectIf (file.blocks ≠ [] ∨ file.generation ≠ record.generation ∨
          file.nextIndex ≠ 0 ∨ inode.len ≠ 0)
        (.alreadyExists
          "replayed CreateFile result no longer owns the initial file state")
      let layout ← getLayout record.inodeId
      rejectIf (layout ≠ record.layout)
        (.internal "replayed CreateFile layout authority changed")

def CreateFileReplayRecord.sameRequest (record : CreateFileReplayRecord)
    (requestDeadlineMs : ℕ) (normalizedPath : String) (mountId : MountId)
    (expectedMountEpoch : ℕ) (mountRootInodeId : InodeId)
    (relativeComponents : List String) : Prop :=
  record.requestDeadlineMs = requestDeadlineMs ∧
    record.normalizedPath = normalizedPath ∧ record.mountId = mountId ∧
    record.expectedMountEpoch = expectedMountEpoch ∧
    record.mountRootInodeId = mountRootInodeId ∧
    record.relativeComponents = relativeComponents

instance (record : CreateFileReplayRecord) (deadline : ℕ) (path : String)
    (mountId : MountId) (epoch : ℕ) (root : InodeId) (components : List String) :
    Decidable (record.sameRequest deadline path mountId epoch root components) :=
  inferInstanceAs (Decidable (_ ∧ _ ∧ _ ∧ _ ∧ _ ∧ _))

def newLeasedFile (inodeId : InodeId) (attrs : InodeAttrs) (mountId : MountId)
    (layout : FileLayout) : Inode where
  inodeId := inodeId
  attrs := attrs
  mountId := mountId
  kind := .file
    { layout := layout, len := 0, generation := 0, blocks := [], nextIndex := 0,
      leaseEpoch := 1, lastCommit := none }

/-- The part of `apply_create` that runs when no replay record exists. -/
def createNewFile (operationId : CreateFileOperationId)
    (requestDeadlineMs sessionExpiresAtMs : ℕ) (normalizedPath : String)
    (mountId : MountId) (expectedMountEpoch : ℕ) (mountRootInodeId : InodeId)
    (relativeComponents : List String) (attrs : InodeAttrs) (layout : FileLayout)
    (proposedAtMs : ℕ) (raftState : AppMetadataRaftState) :
    StorageM CreateFileReplayRecord := do
  rejectIf (requestDeadlineMs < proposedAtMs) (.invalidArgument
    "CreateFile request deadline expired before proposal")
  rejectIf (sessionExpiresAtMs ≤ proposedAtMs)
    (.again "CreateFile write session expired before proposal")
  ofResult (layout.validate.mapError fun error =>
    MetadataError.invalidArgument s!"invalid CreateFile layout: {error.display}")
  let (parentInodeId, name, parentInode) ← resolveCreateParent mountId
    expectedMountEpoch mountRootInodeId relativeComponents
  let existing ← getDentry parentInodeId name
  rejectIf (existing.isSome = true)
    (.alreadyExists s!"File already exists: {name}")
  let allocation ← prepareInodeAllocation
  let inode := newLeasedFile allocation.inodeId
    (InodeAttrs.initializeAt attrs proposedAtMs) parentInode.mountId layout
  let record : CreateFileReplayRecord :=
    { operationId, requestDeadlineMs, normalizedPath, parentInodeId, name,
      inodeId := inode.inodeId, mountId, expectedMountEpoch, mountRootInodeId,
      relativeComponents, leaseEpoch := 1, layout, generation := 0,
      expiresAtMs := sessionExpiresAtMs }
  createFileAtomic allocation parentInodeId name inode
    (touchParent parentInode proposedAtMs) record proposedAtMs raftState
  pure record

def applyCreate (operationId : CreateFileOperationId)
    (requestDeadlineMs sessionExpiresAtMs : ℕ) (normalizedPath : String)
    (mountId : MountId) (expectedMountEpoch : ℕ) (mountRootInodeId : InodeId)
    (relativeComponents : List String) (attrs : InodeAttrs) (layout : FileLayout)
    (proposedAtMs : ℕ) (raftState : AppMetadataRaftState) :
    StorageM CreateFileReplayRecord := do
  match ← getCreateFileReplay operationId with
  | some record => do
      rejectIf (¬record.sameRequest requestDeadlineMs normalizedPath mountId
          expectedMountEpoch mountRootInodeId relativeComponents)
        (.invalidArgument
          "CreateFile operation identity was reused with a different request")
      validateCreateFileReplay record proposedAtMs
      commitAppliedState raftState
      pure record
  | none =>
    createNewFile operationId requestDeadlineMs sessionExpiresAtMs
      normalizedPath mountId expectedMountEpoch mountRootInodeId
      relativeComponents attrs layout proposedAtMs raftState

/-! ## Delete -/

def mountPrefixMatchesPath (mountPrefix path : String) : Bool :=
  if mountPrefix = rootMountPrefix then path.toList.head? = some '/'
  else path = mountPrefix ||
    (mountPrefix.toList.isPrefixOf path.toList &&
      (path.toList.drop mountPrefix.toList.length).head? = some '/')

/-- The byte length of a mount-relative path, `none` on overflow. -/
def relativePathBytes (relativeComponents : List String) : Option ℕ :=
  relativeComponents.foldl
    (fun bytes component => bytes.bind fun bytes => checkedAddU64 bytes component.utf8ByteSize)
    (some (relativeComponents.length - 1))

def targetPathBytes (mountPrefix : String) (relativeBytes : ℕ) : Option ℕ :=
  if mountPrefix = rootMountPrefix then checkedAddU64 1 relativeBytes
  else (checkedAddU64 mountPrefix.utf8ByteSize 1).bind fun bytes =>
    checkedAddU64 bytes relativeBytes

def targetPath (mountPrefix : String) (relativeComponents : List String) : String :=
  let relativePath := "/".intercalate relativeComponents
  if mountPrefix = rootMountPrefix then s!"/{relativePath}"
  else s!"{mountPrefix}/{relativePath}"

/-- The walk of `resolve_delete_target`: all but the last component must be
directories, and the last names the target. -/
def walkDeleteTarget (mounts : List MountEntry) (mountId : MountId)
    (parent : Inode) : List String → StorageM (InodeId × String × Inode)
  | [] => Transaction.fail (.panicked "Delete components are checked as non-empty")
  | component :: rest => do
      let childInodeId ← okOrElse (← getDentry parent.inodeId component)
        (entryNotFound component parent.inodeId)
      let child ← okOrElse (← getInode childInodeId)
        (.notFound s!"Child inode not found: {childInodeId}")
      rejectIf (child.inodeId ≠ childInodeId)
        (.internal s!"inode key {childInodeId} contains inode {child.inodeId}")
      rejectIf (child.mountId ≠ mountId)
        (.crossMountRename "delete path crosses mount authority")
      if rest = [] then do
        rejectIf (mounts.any fun entry => entry.rootInodeId = childInodeId)
          (.invalidArgument s!"Cannot delete mount root inode {childInodeId}")
        pure (parent.inodeId, component, child)
      else do
        rejectIf (child.fileType ≠ .dir)
          (.notDir s!"Path component is not a directory: {component}")
        walkDeleteTarget mounts mountId child rest

def resolveDeleteTarget (mountId : MountId) (expectedMountEpoch : ℕ)
    (mountRootInodeId : InodeId) (relativeComponents : List String) :
    StorageM (InodeId × String × Inode) := do
  ofResult (validateRelativeComponents "Delete" relativeComponents)
  let mounts ← listMounts
  let mount ← okOrElse (mounts.find? fun entry => entry.mountId = mountId)
    (mountNotFound mountId)
  rejectIf (mount.mountEpoch ≠ expectedMountEpoch ∨ mount.rootInodeId ≠ mountRootInodeId)
    (.again ("delete mount precondition changed for " ++ debugId "MountId" mountId))
  let relativeBytes ← okOrElse (relativePathBytes relativeComponents)
    (.invalidArgument "Delete path length overflow")
  let targetBytes ← okOrElse (targetPathBytes mount.mountPrefix relativeBytes)
    (.invalidArgument "Delete path length overflow")
  rejectIf (targetBytes > maxPathBytes)
    (.invalidArgument s!"Delete path exceeds {maxPathBytes} bytes")
  let target := targetPath mount.mountPrefix relativeComponents
  rejectIf (mounts.any fun entry =>
      entry.mountId ≠ mountId && mountPrefixMatchesPath target entry.mountPrefix)
    (.crossMountRename "delete target is a mount root or contains a nested mount")
  let root ← okOrElse (← getInode mountRootInodeId)
    (.notFound s!"Mount root inode not found: {mountRootInodeId}")
  rejectIf (root.inodeId ≠ mountRootInodeId) (.internal
    s!"mount root inode key {mountRootInodeId} contains inode {root.inodeId}")
  rejectIf (root.fileType ≠ .dir)
    (.notDir s!"Mount root is not a directory: {mountRootInodeId}")
  rejectIf (root.mountId ≠ mountId)
    (.crossMountRename "mount root inode belongs to a different mount")
  walkDeleteTarget mounts mountId root relativeComponents

def applyUnlink (parentInodeId : InodeId) (name : String) (proposedAtMs : ℕ)
    (raftState : AppMetadataRaftState) : StorageM Unit := do
  let childInodeId ← okOrElse (← getDentry parentInodeId name)
    (.notFound s!"Entry not found: {name}")
  let childInode ← okOrElse (← getInode childInodeId)
    (.notFound s!"Child inode not found: {childInodeId}")
  rejectIf (childInode.fileType = .dir) (.isDir s!"Cannot unlink directory: {name}")
  let parentInode ← okOrElse (← getInode parentInodeId)
    (.internal "Parent inode disappeared")
  let corrupt : MetadataError := .internal
    s!"file inode {childInodeId} has corrupt identity or missing layout: value_id={childInode.inodeId}"
  rejectIf (childInode.inodeId ≠ childInodeId) corrupt
  let layout ← getLayoutOptional childInodeId
  rejectIf (layout = none) corrupt
  unlinkInodeAtomic parentInodeId name childInodeId
    (touchParent parentInode proposedAtMs) raftState

def applyDeleteEmptyDir (parentInodeId : InodeId) (name : String)
    (proposedAtMs : ℕ) (raftState : AppMetadataRaftState) : StorageM Unit := do
  let childInodeId ← okOrElse (← getDentry parentInodeId name)
    (.notFound s!"Directory not found: {name}")
  let childInode ← okOrElse (← getInode childInodeId)
    (.notFound s!"Child inode not found: {childInodeId}")
  rejectIf (childInode.fileType ≠ .dir) (.notDir s!"Not a directory: {name}")
  let empty ← isDirectoryEmpty childInodeId
  rejectIf (empty = false) (.directoryNotEmpty s!"Directory not empty: {name}")
  let parentInode ← okOrElse (← getInode parentInodeId)
    (.internal "Parent inode disappeared")
  unlinkInodeAtomic parentInodeId name childInodeId
    (touchParent parentInode proposedAtMs) raftState

def applyDetachDirectory (parentInodeId : InodeId) (name : String)
    (rootInodeId : InodeId) (proposedAtMs : ℕ) (raftState : AppMetadataRaftState) :
    StorageM Unit := do
  let currentRootInodeId ← okOrElse (← getDentry parentInodeId name)
    (.notFound s!"Directory not found: {name}")
  rejectIf (currentRootInodeId ≠ rootInodeId) (.again
    s!"delete target changed for {name}: expected {rootInodeId}, current {currentRootInodeId}")
  let root ← okOrElse (← getInode rootInodeId)
    (.notFound s!"Root inode not found: {rootInodeId}")
  rejectIf (root.fileType ≠ .dir) (.notDir s!"Not a directory: {name}")
  let carriesFile : MetadataError :=
    .internal s!"directory inode {rootInodeId} carries file authority"
  rejectIf (root.inodeId ≠ rootInodeId) carriesFile
  let layout ← getLayoutOptional rootInodeId
  rejectIf (layout ≠ none) carriesFile
  let marker ← getDetachedRoot rootInodeId
  rejectIf (marker ≠ none)
    (.internal s!"inode {rootInodeId} is both reachable and already detached")
  let parentInode ← okOrElse (← getInode parentInodeId)
    (.internal "Parent inode disappeared")
  rejectIf (parentInode.fileType ≠ .dir)
    (.notDir s!"Parent is not a directory: {parentInodeId}")
  rejectIf (parentInode.mountId ≠ root.mountId)
    (.crossMountRename "recursive delete cannot cross mount boundary")
  detachDirectoryAtomic parentInodeId name rootInodeId
    (touchParent parentInode proposedAtMs) ⟨root.mountId, proposedAtMs⟩ raftState

/-- The durable writer epoch of a file, `none` for a directory. -/
def Inode.fileLeaseEpoch (inode : Inode) : Option LeaseEpoch :=
  match inode.kind with
  | .file file => some file.leaseEpoch
  | .dir => none

def applyDelete (mountId : MountId) (expectedMountEpoch : ℕ)
    (mountRootInodeId : InodeId) (relativeComponents : List String)
    (expectedInodeId : InodeId) (expectedFileLeaseEpoch : Option LeaseEpoch)
    (recursive : Bool) (proposedAtMs : ℕ) (raftState : AppMetadataRaftState) :
    StorageM Unit := do
  let (parentInodeId, name, childInode) ← resolveDeleteTarget mountId
    expectedMountEpoch mountRootInodeId relativeComponents
  rejectIf (childInode.inodeId ≠ expectedInodeId) (.again
    s!"delete target changed for {name}: expected {expectedInodeId}, current {childInode.inodeId}")
  if childInode.fileType = .dir then do
    rejectIf (expectedFileLeaseEpoch.isSome = true)
      (.again "delete target lease precondition changed")
    if recursive then
      applyDetachDirectory parentInodeId name childInode.inodeId proposedAtMs
        raftState
    else applyDeleteEmptyDir parentInodeId name proposedAtMs raftState
  else do
    rejectIf (childInode.fileLeaseEpoch ≠ expectedFileLeaseEpoch)
      (.again ("delete target lease precondition changed: expected " ++
        debugOptionId "LeaseEpoch" expectedFileLeaseEpoch ++ ", current " ++
        debugOptionId "LeaseEpoch" childInode.fileLeaseEpoch))
    applyUnlink parentInodeId name proposedAtMs raftState

/-! ## Rename -/

def prepareRenameOverwriteTargetCleanup (dstInodeId : InodeId)
    (dstInode : Inode) : StorageM InodeId :=
  match dstInode.kind with
  | .file _ => do
      let corrupt : MetadataError := .internal
        s!"file inode {dstInodeId} has corrupt identity or missing layout: value_id={dstInode.inodeId}"
      rejectIf (dstInode.inodeId ≠ dstInodeId) corrupt
      let layout ← getLayoutOptional dstInodeId
      rejectIf (layout = none) corrupt
      pure dstInodeId
  | .dir => do
      let empty ← isDirectoryEmpty dstInodeId
      rejectIf (empty = false)
        (.directoryNotEmpty "Cannot overwrite non-empty directory")
      let corrupt : MetadataError := .internal
        s!"directory inode {dstInodeId} carries invalid file authority: value_id={dstInode.inodeId}"
      rejectIf (dstInode.inodeId ≠ dstInodeId) corrupt
      let layout ← getLayoutOptional dstInodeId
      rejectIf (layout ≠ none) corrupt
      pure dstInodeId

/-- The checks on an existing destination other than the source itself. -/
def prepareRenameOverwrite (srcInode : Inode) (dstInodeId : InodeId)
    (dstName : String) (expectedDstLeaseEpoch : Option LeaseEpoch) :
    StorageM InodeId := do
  let dstInode ← okOrElse (← getInode dstInodeId)
    (.internal "Destination inode disappeared")
  rejectIf (dstInode.fileLeaseEpoch ≠ expectedDstLeaseEpoch)
    (.again (s!"rename destination lease epoch changed for {dstName}: expected " ++
      debugOptionId "LeaseEpoch" expectedDstLeaseEpoch ++ ", current " ++
      debugOptionId "LeaseEpoch" dstInode.fileLeaseEpoch))
  if srcInode.fileType = .dir then do
    rejectIf (dstInode.fileType ≠ .dir)
      (.notDir "Cannot overwrite non-directory with directory")
    let empty ← isDirectoryEmpty dstInodeId
    rejectIf (empty = false)
      (.directoryNotEmpty "Cannot overwrite non-empty directory")
    prepareRenameOverwriteTargetCleanup dstInodeId dstInode
  else do
    rejectIf (dstInode.fileType = .dir)
      (.isDir "Cannot overwrite directory with file")
    prepareRenameOverwriteTargetCleanup dstInodeId dstInode

/-- The touched parents: both when they differ, the single one otherwise. -/
def prepareRenameParents (srcParentInodeId dstParentInodeId : InodeId)
    (proposedAtMs : ℕ) : StorageM (Option Inode × Option Inode) := do
  if srcParentInodeId ≠ dstParentInodeId then do
    let srcParent ← okOrElse (← getInode srcParentInodeId)
      (.internal "Source parent disappeared")
    let dstParent ← okOrElse (← getInode dstParentInodeId)
      (.internal "Destination parent disappeared")
    pure (some (touchParent srcParent proposedAtMs), some (touchParent dstParent proposedAtMs))
  else do
    let parent ← okOrElse (← getInode srcParentInodeId)
      (.internal "Parent disappeared")
    pure (some (touchParent parent proposedAtMs), none)

structure PreparedRename where
  srcInodeId : InodeId
  overwrittenTarget : Option InodeId
  updatedSrcParent : Option Inode
  updatedDstParent : Option Inode
deriving DecidableEq, Repr

def prepareRename (srcParentInodeId : InodeId) (srcName : String)
    (expectedSrcInodeId dstParentInodeId : InodeId) (dstName : String)
    (expectedDstInodeId : Option InodeId)
    (expectedDstLeaseEpoch : Option LeaseEpoch) (flags : UInt32)
    (proposedAtMs : ℕ) : StorageM PreparedRename := do
  let srcInodeId ← okOrElse (← getDentry srcParentInodeId srcName)
    (.notFound s!"Source not found: {srcName}")
  rejectIf (srcInodeId ≠ expectedSrcInodeId) (.again
    s!"rename source changed for {srcName}: expected {expectedSrcInodeId}, current {srcInodeId}")
  let currentDstInodeId ← getDentry dstParentInodeId dstName
  rejectIf (currentDstInodeId ≠ expectedDstInodeId)
    (.again (s!"rename destination changed for {dstName}: expected " ++
      debugOptionId "InodeId" expectedDstInodeId ++ ", current " ++
      debugOptionId "InodeId" currentDstInodeId))
  let srcInode ← okOrElse (← getInode srcInodeId)
    (.notFound s!"Source inode not found: {srcInodeId}")
  match currentDstInodeId with
  | none => do
      let (srcParent, dstParent) ←
        prepareRenameParents srcParentInodeId dstParentInodeId proposedAtMs
      pure ⟨srcInodeId, none, srcParent, dstParent⟩
  | some dstInodeId => do
      rejectIf (flags &&& 1 ≠ 0) (.alreadyExists
        s!"Destination exists and RENAME_NOREPLACE set: {dstName}")
      if srcInodeId = dstInodeId then pure ⟨srcInodeId, none, none, none⟩
      else do
        let overwritten ← prepareRenameOverwrite srcInode dstInodeId dstName
          expectedDstLeaseEpoch
        let (srcParent, dstParent) ←
          prepareRenameParents srcParentInodeId dstParentInodeId proposedAtMs
        pure ⟨srcInodeId, some overwritten, srcParent, dstParent⟩

def applyRename (srcParentInodeId : InodeId) (srcName : String)
    (expectedSrcInodeId dstParentInodeId : InodeId) (dstName : String)
    (expectedDstInodeId : Option InodeId)
    (expectedDstLeaseEpoch : Option LeaseEpoch) (flags : UInt32)
    (proposedAtMs : ℕ) (raftState : AppMetadataRaftState) : StorageM Unit := do
  let prepared ← prepareRename srcParentInodeId srcName expectedSrcInodeId
    dstParentInodeId dstName expectedDstInodeId expectedDstLeaseEpoch flags
    proposedAtMs
  renameAtomic
    { srcParentInodeId, srcName, dstParentInodeId, dstName,
      srcInodeId := prepared.srcInodeId,
      overwrittenTarget := prepared.overwrittenTarget,
      updatedSrcParent := prepared.updatedSrcParent,
      updatedDstParent := prepared.updatedDstParent } raftState

end Beryl
