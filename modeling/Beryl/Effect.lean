import Beryl.Invariants
import Beryl.StateMachine

/-!
# What a successful command does

One constructor for each way a command can succeed: the facts it has checked in
the store, the answer it gives, and the batch it commits.  Later proofs take
commands apart through this relation and never unfold an apply function.
-/

namespace Beryl

def createEntryOps (parentInodeId : InodeId) (name : String)
    (inode updatedParent : Inode) : WriteBatch :=
  [.putInode inode, .putInode updatedParent, .putDentry parentInodeId name inode.inodeId]

def RecursiveMkdirEntry.ops (entry : RecursiveMkdirEntry) : WriteBatch :=
  createEntryOps entry.parentInodeId entry.name entry.inode entry.updatedParent

def DetachedRootReclaimEntry.ops (entry : DetachedRootReclaimEntry) : WriteBatch :=
  .deleteDentry entry.parentInodeId entry.name ::
    match entry.childDetachedRoot with
    | some root => [.putDetachedRoot entry.inodeId root]
    | none => [.deleteInode entry.inodeId]

def DetachedRootReclaimUpdate.ops (update : DetachedRootReclaimUpdate) : WriteBatch :=
  update.entries.flatMap DetachedRootReclaimEntry.ops ++
    completionOps update.completedRootInodeIds

def bootstrapOps (proposedAtMs : ℕ) (groupName : GroupName) : WriteBatch :=
  [.putInode (rootInode proposedAtMs), .putMount (rootMountEntry groupName), .putRouteEpoch 1,
    .putMountEpoch 1, .putNextInodeId 2]

def recordOps (record : CreateFileReplayRecord) (count : ℕ) : WriteBatch :=
  [.putReplay record, .putReplayInode record.inodeId record.operationId,
    .putReplayExpiry record.expiresAtMs record.operationId, .putReplayCount count]

def evictionOps (expiresAtMs : ℕ) (record : CreateFileReplayRecord) : WriteBatch :=
  [.deleteReplayExpiry expiresAtMs record.operationId, .deleteReplay record.operationId,
    .deleteReplayInode record.inodeId]

def createFileOps (parent : Inode) (name : String) (next : InodeId)
    (attrs : InodeAttrs) (layout : FileLayout) (t : ℕ) (eviction : WriteBatch)
    (record : CreateFileReplayRecord) (count : ℕ) : WriteBatch :=
  createEntryOps parent.inodeId name
    (newLeasedFile next (InodeAttrs.initializeAt attrs t) parent.mountId layout)
    (touchParent parent t) ++ [.putNextInodeId (next + 1)] ++ eviction ++
    recordOps record count

structure Store.Allocates (s : Store) (next : InodeId) : Prop where
  next_eq : s.nextInodeId = some next
  two_le : 2 ≤ next
  ahead : ∀ {i inode}, s.inode i = some inode → i < next

inductive DirectoryPath (s : Store) : Inode → List String → Inode → Prop
  | nil {parent : Inode} : DirectoryPath s parent [] parent
  | cons {parent child last : Inode} {component : String} {rest : List String}
      {childInodeId : InodeId}
      (hdentry : s.dentry parent.inodeId component = some childInodeId)
      (hinode : s.inode childInodeId = some child)
      (hid : child.inodeId = childInodeId)
      (hdir : child.kind = .dir)
      (htail : DirectoryPath s child rest last) :
      DirectoryPath s parent (component :: rest) last

structure MountRootAt (s : Store) (mountRootInodeId : InodeId) (root : Inode) :
    Prop where
  is_root : s.IsMountRoot mountRootInodeId
  inode_eq : s.inode mountRootInodeId = some root
  id_eq : root.inodeId = mountRootInodeId
  is_dir : root.kind = .dir

/-- The plan of a recursive mkdir below `parent`, with `next` the next free id. -/
inductive DirectoryPlan (s : Store) (attrs : InodeAttrs) (proposedAtMs : ℕ) :
    Inode → ℕ → List String → Inode → ℕ → List RecursiveMkdirEntry → Prop
  | done {parent : Inode} {next : ℕ} :
      DirectoryPlan s attrs proposedAtMs parent next [] parent next []
  | enter {parent child last : Inode} {next next' : ℕ} {name : String}
      {rest : List String} {entries : List RecursiveMkdirEntry}
      {childInodeId : InodeId}
      (hdentry : s.dentry parent.inodeId name = some childInodeId)
      (hinode : s.inode childInodeId = some child)
      (hdir : child.kind = .dir)
      (htail : DirectoryPlan s attrs proposedAtMs child next rest last next' entries) :
      DirectoryPlan s attrs proposedAtMs parent next (name :: rest) last next' entries
  | create {parent last : Inode} {next next' : ℕ} {name : String}
      {rest : List String} {entries : List RecursiveMkdirEntry}
      (hdentry : s.dentry parent.inodeId name = none)
      (htail : DirectoryPlan s attrs proposedAtMs
        (Inode.newDir next (InodeAttrs.initializeAt attrs proposedAtMs) parent.mountId)
        (next + 1) rest last next' entries) :
      DirectoryPlan s attrs proposedAtMs parent next (name :: rest) last next'
        (⟨parent.inodeId, name,
          Inode.newDir next (InodeAttrs.initializeAt attrs proposedAtMs) parent.mountId,
          touchParent parent proposedAtMs⟩ :: entries)

/-- How the replay table makes room for a record: below the bound nothing is
evicted, at the bound the earliest record is, once it has expired. -/
inductive ReplayRoom (s : Store) (proposedAtMs : ℕ) : WriteBatch → ℕ → Prop
  | free
      (hlt : s.createFileReplayCount.getD 0 < maxCreateFileReplayRecords) :
      ReplayRoom s proposedAtMs [] (s.createFileReplayCount.getD 0 + 1)
  | evict {record : CreateFileReplayRecord} {expiresAtMs : ℕ}
      (hfull : s.createFileReplayCount.getD 0 = maxCreateFileReplayRecords)
      (hfirst : s.createFileReplayExpiry.entries.head? =
        some (expiryKey expiresAtMs record.operationId, ()))
      (hexpired : expiresAtMs ≤ proposedAtMs)
      (hrecord : s.createFileReplay.get record.operationId.key = some record)
      (hindex : s.createFileReplayInode.get record.inodeId = some record.operationId) :
      ReplayRoom s proposedAtMs (evictionOps expiresAtMs record)
        maxCreateFileReplayRecords

structure ReclaimableEntry (s : Store) (entry : DetachedRootReclaimEntry) : Prop where
  exists_child : ∃ root child, s.marker entry.parentInodeId = some root ∧
    s.dentry entry.parentInodeId entry.name = some entry.inodeId ∧
    s.marker entry.inodeId = none ∧ s.inode entry.inodeId = some child ∧
    child.mountId = root.mountId ∧
    entry.childDetachedRoot = (if child.kind = .dir then some root else none)

/-- A reclamation plan: distinct children of marked candidates, and the roots
whose entries are all among them.  A marked candidate makes it non-empty. -/
structure ReclaimPlan (s : Store) (candidates : List InodeId) (maxEntries : ℕ)
    (update : DetachedRootReclaimUpdate) : Prop where
  entries_le : update.entries.length ≤ maxEntries
  unmarked : update.entries = [] → update.completedRootInodeIds = [] →
    ∀ root ∈ candidates, s.marker root = none
  entries_ok : ∀ entry ∈ update.entries, ReclaimableEntry s entry
  parents_mem : ∀ entry ∈ update.entries, entry.parentInodeId ∈ candidates
  entries_nodup : (update.entries.map DetachedRootReclaimEntry.inodeId).Nodup
  completed_nodup : update.completedRootInodeIds.Nodup
  completed_mem : ∀ root ∈ update.completedRootInodeIds, root ∈ candidates
  completed_marked : ∀ root ∈ update.completedRootInodeIds,
    ∃ marker, s.marker root = some marker
  completed_empty : ∀ root ∈ update.completedRootInodeIds, ∀ name child,
    s.dentry root name = some child → ∃ entry ∈ update.entries,
      entry.parentInodeId = root ∧ entry.name = name ∧ entry.inodeId = child

/-- What a rename has checked about an existing destination it replaces. -/
structure Overwritable (s : Store) (src : Inode) (dstInodeId : InodeId) : Prop where
  exists_target : ∃ dst, s.inode dstInodeId = some dst ∧ dst.inodeId = dstInodeId ∧
    dst.fileType = src.fileType ∧
    (dst.kind = .dir → ∀ name, s.dentry dstInodeId name = none)

/-- The deletes and the put of a move, with the parents it touches. -/
def renameOps (srcParentInodeId : InodeId) (srcName : String)
    (dstParentInodeId : InodeId) (dstName : String) (srcInodeId : InodeId)
    (overwritten : Option InodeId) (parents : List Inode) : WriteBatch :=
  (match overwritten with
    | none => []
    | some dstInodeId =>
      [.deleteInode dstInodeId, .deleteDentry dstParentInodeId dstName]) ++
    [.deleteDentry srcParentInodeId srcName, .putDentry dstParentInodeId dstName srcInodeId] ++
    parents.map BatchOp.putInode

inductive RenameParents (s : Store) (proposedAtMs : ℕ) (srcParentInodeId
    dstParentInodeId : InodeId) : List Inode → Prop
  | same {parent : Inode} (heq : srcParentInodeId = dstParentInodeId)
      (hparent : s.inode srcParentInodeId = some parent) :
      RenameParents s proposedAtMs srcParentInodeId dstParentInodeId
        [touchParent parent proposedAtMs]
  | different {srcParent dstParent : Inode}
      (hne : srcParentInodeId ≠ dstParentInodeId)
      (hsrc : s.inode srcParentInodeId = some srcParent)
      (hdst : s.inode dstParentInodeId = some dstParent) :
      RenameParents s proposedAtMs srcParentInodeId dstParentInodeId
        [touchParent srcParent proposedAtMs, touchParent dstParent proposedAtMs]

/-- The target of a delete, found by walking down from its mount root. -/
structure DeleteTarget (s : Store) (mountRootInodeId : InodeId)
    (relativeComponents : List String) (parent : Inode) (name : String)
    (child : Inode) : Prop where
  walk : ∃ root, MountRootAt s mountRootInodeId root ∧
    DirectoryPath s root relativeComponents.dropLast parent
  name_eq : relativeComponents.getLast? = some name
  dentry_eq : s.dentry parent.inodeId name = some child.inodeId
  child_eq : s.inode child.inodeId = some child
  not_root : ¬s.IsMountRoot child.inodeId

structure CreateParent (s : Store) (mountRootInodeId : InodeId)
    (relativeComponents : List String) (parent : Inode) (name : String) : Prop where
  walk : ∃ root, MountRootAt s mountRootInodeId root ∧
    DirectoryPath s root relativeComponents.dropLast parent
  name_eq : relativeComponents.getLast? = some name
  valid_name : ValidName name

structure FileAt (s : Store) (inodeId : InodeId) (inode : Inode) (file : FileData) :
    Prop where
  inode_eq : s.inode inodeId = some inode
  id_eq : inode.inodeId = inodeId
  kind_eq : inode.kind = .file file
  valid : file.validate inodeId = .ok ()

/-- The batch of a recursive mkdir; nothing missing writes nothing. -/
def directoriesOps (entries : List RecursiveMkdirEntry) (next : ℕ) : WriteBatch :=
  if entries = [] then []
  else entries.flatMap RecursiveMkdirEntry.ops ++ [.putNextInodeId next]

/-- The namespace is the one that a bootstrap for the group leaves. -/
structure Bootstrapped (s : Store) (group : GroupName) : Prop where
  root_eq : ∃ root, s.inode rootInodeId = some root ∧ root.inodeId = rootInodeId ∧
    root.kind = .dir ∧ root.mountId = rootMountId
  mounts_eq : s.mounts.entries.map Prod.snd = [rootMountEntry group]
  last_eq : s.lastInodeKey = some rootInodeId
  routeEpoch_eq : s.routeEpoch = some 1
  mountEpoch_eq : s.mountEpoch = some 1
  next_eq : s.nextInodeId = some 2

/-- What a reclamation answers about its plan. -/
structure DetachedRootReclaimResult.Counts (result : DetachedRootReclaimResult)
    (update : DetachedRootReclaimUpdate) (maxBatchBytes : ℕ) : Prop where
  processed_eq : result.processedEntries = update.entries.length
  completed_eq : result.completedRoots = update.completedRootInodeIds.length
  created_eq : result.createdRoots = update.entries.countP (·.childDetachedRoot.isSome)
  bytes_le : result.logicalBatchBytes ≤ maxBatchBytes

inductive Effect (s : Store) : Command → ApplySuccess → WriteBatch → Prop
  | bootstrapConfirmed {t : ℕ} {group : GroupName} (hroot : Bootstrapped s group) :
      Effect s (.bootstrapNamespace t group)
        (.mountUpserted (rootMountEntry group)) []
  | bootstrapped {t : ℕ} {group : GroupName}
      (hinodes : ∀ i, s.inode i = none) (hmounts : ∀ m, s.mounts.get m = none)
      (hnext : s.nextInodeId = none) :
      Effect s (.bootstrapNamespace t group)
        (.mountUpserted (rootMountEntry group)) (bootstrapOps t group)
  | workerRegistered {t : ℕ} {group : GroupName} {workerId : WorkerId}
      {address : String} {protocol : ℤ} {domain : Option String}
      (hworker : workerId ≠ 0) :
      Effect s (.registerWorkerDescriptor t group workerId address protocol domain)
        (.workerUpserted workerId)
        [.putWorker (newWorkerInfo group workerId address protocol domain)]
  | directoryMade {t : ℕ} {p next : InodeId} {name : String} {attrs : InodeAttrs}
      {parent : Inode}
      (hparent : s.inode p = some parent) (hdir : parent.kind = .dir)
      (hfree : s.dentry p name = none) (halloc : s.Allocates next) :
      Effect s (.createDirectory t p [name] attrs false)
        (.directoryEnsured next (InodeAttrs.initializeAt attrs t))
        (createEntryOps p name (Inode.newDir next (InodeAttrs.initializeAt attrs t) parent.mountId)
          (touchParent parent t) ++ [.putNextInodeId (next + 1)])
  | directoriesMade {t : ℕ} {rootInodeId next next' : InodeId}
      {components : List String} {attrs : InodeAttrs} {root last : Inode}
      {entries : List RecursiveMkdirEntry}
      (hroot : s.inode rootInodeId = some root) (hdir : root.kind = .dir)
      (hcomponents : "" ∉ components) (halloc : s.Allocates next)
      (hplan : DirectoryPlan s attrs t root next components last next' entries) :
      Effect s (.createDirectory t rootInodeId components attrs true)
        (.directoryEnsured last.inodeId last.attrs) (directoriesOps entries next')
  | fileMade {t deadline expires epoch : ℕ} {operationId : CreateFileOperationId}
      {path name : String} {mountId : MountId} {rootInodeId next : InodeId}
      {components : List String} {attrs : InodeAttrs} {layout : FileLayout}
      {parent : Inode} {record : CreateFileReplayRecord} {eviction : WriteBatch}
      {count : ℕ}
      (hnew : s.createFileReplay.get operationId.key = none)
      (hdeadline : t ≤ deadline) (hexpires : t < expires)
      (hlayout : layout.validate = .ok ())
      (hparent : CreateParent s rootInodeId components parent name)
      (hfree : s.dentry parent.inodeId name = none) (halloc : s.Allocates next)
      (hroom : ReplayRoom s t eviction count)
      (hrecord : record =
        { operationId, requestDeadlineMs := deadline, normalizedPath := path,
          parentInodeId := parent.inodeId, name, inodeId := next, mountId,
          expectedMountEpoch := epoch, mountRootInodeId := rootInodeId,
          relativeComponents := components, leaseEpoch := 1, layout,
          generation := 0, expiresAtMs := expires }) :
      Effect s (.createFile t operationId deadline expires path mountId epoch
          rootInodeId components attrs layout)
        (.fileCreated next layout 1 expires 0)
        (createFileOps parent name next attrs layout t eviction record count)
  | fileReplayed {t deadline expires epoch : ℕ} {operationId : CreateFileOperationId}
      {path : String} {mountId : MountId} {rootInodeId : InodeId}
      {components : List String} {attrs : InodeAttrs} {layout : FileLayout}
      {record : CreateFileReplayRecord}
      (hrecord : s.createFileReplay.get operationId.key = some record)
      (hsame : record.sameRequest deadline path mountId epoch rootInodeId components)
      (hlive : t < record.expiresAtMs) :
      Effect s (.createFile t operationId deadline expires path mountId epoch
          rootInodeId components attrs layout)
        (.fileCreated record.inodeId record.layout record.leaseEpoch
          record.expiresAtMs record.generation) []
  | unlinked {t epoch : ℕ} {mountId : MountId} {rootInodeId : InodeId}
      {components : List String} {lease : Option LeaseEpoch} {recursive : Bool}
      {name : String} {parent child : Inode} {file : FileData}
      (htarget : DeleteTarget s rootInodeId components parent name child)
      (hfile : child.kind = .file file) :
      Effect s (.delete t mountId epoch rootInodeId components child.inodeId lease
          recursive) .deleteApplied
        [.deleteDentry parent.inodeId name, .deleteInode child.inodeId,
          .putInode (touchParent parent t)]
  | directoryRemoved {t epoch : ℕ} {mountId : MountId} {rootInodeId : InodeId}
      {components : List String} {name : String} {parent child : Inode}
      (htarget : DeleteTarget s rootInodeId components parent name child)
      (hdir : child.kind = .dir)
      (hempty : ∀ name, s.dentry child.inodeId name = none) :
      Effect s (.delete t mountId epoch rootInodeId components child.inodeId none
          false) .deleteApplied
        [.deleteDentry parent.inodeId name, .deleteInode child.inodeId,
          .putInode (touchParent parent t)]
  | directoryDetached {t epoch : ℕ} {mountId : MountId} {rootInodeId : InodeId}
      {components : List String} {name : String} {parent child : Inode}
      (htarget : DeleteTarget s rootInodeId components parent name child)
      (hdir : child.kind = .dir) (hmarker : s.marker child.inodeId = none) :
      Effect s (.delete t mountId epoch rootInodeId components child.inodeId none
          true) .deleteApplied
        [.deleteDentry parent.inodeId name, .putInode (touchParent parent t),
          .putDetachedRoot child.inodeId ⟨child.mountId, t⟩]
  | renameUnchanged {t : ℕ} {p q x : InodeId} {name name' : String}
      {lease : Option LeaseEpoch} {flags : UInt32} {src : Inode}
      (hsrc : s.dentry p name = some x) (hdst : s.dentry q name' = some x)
      (hinode : s.inode x = some src) :
      Effect s (.rename t p name x q name' (some x) lease flags) .renameApplied
        (renameOps p name q name' x none [])
  | renamed {t : ℕ} {p q x : InodeId} {name name' : String}
      {expectedDst : Option InodeId} {lease : Option LeaseEpoch} {flags : UInt32}
      {src : Inode} {parents : List Inode}
      (hsrc : s.dentry p name = some x) (hdst : s.dentry q name' = expectedDst)
      (hinode : s.inode x = some src)
      (hover : ∀ y, expectedDst = some y → y ≠ x ∧ Overwritable s src y)
      (hparents : RenameParents s t p q parents) :
      Effect s (.rename t p name x q name' expectedDst lease flags) .renameApplied
        (renameOps p name q name' x expectedDst parents)
  | leaseAcquired {t : ℕ} {i : InodeId} {inode : Inode} {file : FileData}
      (hfile : FileAt s i inode file) (hbound : file.leaseEpoch + 1 < 2 ^ 64)
      (hfree : ∀ operationId record, s.createFileReplayInode.get i = some operationId →
        s.createFileReplay.get operationId.key = some record → ¬record.ownsInitialSession file t) :
      Effect s (.acquireWriteLease t i file.leaseEpoch)
        (.writeLeaseAcquired i (file.leaseEpoch + 1))
        [.putInode (inode.withFile { file with leaseEpoch := file.leaseEpoch + 1 })]
  | blockAllocated {i : InodeId} {inode : Inode} {file : FileData}
      (hfile : FileAt s i inode file) (hindex : file.nextIndex < 2 ^ 32) :
      Effect s (.allocateBlock i file.leaseEpoch)
        (.blockAllocated ⟨i, file.nextIndex⟩)
        [.putInode (inode.withFile { file with nextIndex := file.nextIndex + 1 })]
  | leaseEnded {t : ℕ} {i : InodeId} {inode : Inode} {file : FileData}
      (hfile : FileAt s i inode file) :
      Effect s (.endWriteLease t i file.leaseEpoch)
        (.writeLeaseEnded i (file.leaseEpoch + 1))
        [.putInode (inode.withFile { file with leaseEpoch := file.leaseEpoch + 1 })]
  | leaseEndRepeated {t : ℕ} {i : InodeId} {inode : Inode} {file : FileData}
      {epoch : LeaseEpoch} (hfile : FileAt s i inode file)
      (hepoch : file.leaseEpoch = epoch + 1) :
      Effect s (.endWriteLease t i epoch) (.writeLeaseEnded i (epoch + 1)) []
  | filePublished {t : ℕ} {i : InodeId} {inode : Inode} {file : FileData}
      {publication : FilePublication} {prepared : PreparedPublication}
      (hfile : FileAt s i inode file)
      (hprepared : prepareFilePublication inode publication t = .ok prepared)
      (hchanged : prepared.changed = true) :
      Effect s (.publishFile t i publication) (.filePublished i prepared.generation)
        [.putInode prepared.inode]
  | publishUnchanged {t : ℕ} {i : InodeId} {inode : Inode} {file : FileData}
      {publication : FilePublication} {prepared : PreparedPublication}
      (hfile : FileAt s i inode file)
      (hprepared : prepareFilePublication inode publication t = .ok prepared)
      (hchanged : prepared.changed = false) :
      Effect s (.publishFile t i publication) (.filePublished i prepared.generation) []
  | fileCommitted {t : ℕ} {i : InodeId} {inode : Inode} {file published : FileData}
      {clientId : ClientId} {callId : CallId} {publication : FilePublication}
      {prepared : PreparedPublication}
      (hfile : FileAt s i inode file)
      (hresolve : publication.resolveCommit inode clientId callId = .ok none)
      (hgeneration : file.generation = publication.expectedGeneration)
      (hbound : publication.leaseEpoch + 1 < 2 ^ 64)
      (hprepared : prepareFilePublication inode publication t = .ok prepared)
      (hpublished : prepared.inode.kind = .file published) :
      Effect s (.commitFile t i clientId callId publication)
        (.fileCommitted i prepared.generation (publication.leaseEpoch + 1))
        [.putInode (prepared.inode.withFile
          { published with
            leaseEpoch := publication.leaseEpoch + 1
            lastCommit := some
              (publication.evidence clientId callId prepared.generation) })]
  | commitReplayed {t : ℕ} {i : InodeId} {inode : Inode} {file : FileData}
      {clientId : ClientId} {callId : CallId} {publication : FilePublication}
      {generation : ContentGeneration}
      (hfile : FileAt s i inode file)
      (hresolve : publication.resolveCommit inode clientId callId = .ok (some generation)) :
      Effect s (.commitFile t i clientId callId publication)
        (.fileCommitted i generation (publication.leaseEpoch + 1)) []
  | reclaimed {candidates : List InodeId} {maxEntries maxBatchBytes : ℕ}
      {update : DetachedRootReclaimUpdate} {result : DetachedRootReclaimResult}
      (hplan : ReclaimPlan s candidates maxEntries update)
      (hcounts : result.Counts update maxBatchBytes) :
      Effect s (.reclaimDetachedRoots candidates maxEntries maxBatchBytes)
        (.detachedRootsReclaimed result) update.ops

end Beryl
