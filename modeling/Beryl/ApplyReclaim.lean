import Beryl.ApplyNamespace

/-!
# Reclaiming detached roots

One bounded reclamation: the entries of leader-selected detached roots are
removed, child directories become detached roots of their own, and a root with
no entry left is retired.  Every candidate is validated before anything is
written.
-/

namespace Beryl

def validateDetachedRootReclaimCommand (candidates : List InodeId)
    (maxEntries maxBatchBytes : ℕ) : MetadataResult Unit :=
  if candidates = [] ∨ candidates.length > maxReclaimDetachedRootCandidates ∨
      0 ∈ candidates then
    .error (.internal
      s!"invalid detached-root candidate count or identity: count={candidates.length}, maximum={maxReclaimDetachedRootCandidates}")
  else if maxEntries = 0 ∨ maxEntries > maxReclaimDetachedRootEntries then
    .error (.internal
      s!"invalid detached-root entry budget {maxEntries}; maximum={maxReclaimDetachedRootEntries}")
  else if ¬(minReclaimDetachedRootBatchBytes ≤ maxBatchBytes ∧
      maxBatchBytes ≤ maxReclaimDetachedRootBatchBytes) then
    .error (.internal
      s!"invalid detached-root byte budget {maxBatchBytes}; range={minReclaimDetachedRootBatchBytes}..={maxReclaimDetachedRootBatchBytes}")
  else .ok ()

/-- `validate_detached_root`: the marker's root and mount, returning the inode
of the mount root. -/
def validateDetachedRoot (rootInodeId : InodeId) (detachedRoot : DetachedRoot) :
    StorageM InodeId := do
  let rootInode ← okOrElse (← getInode rootInodeId)
    (.internal s!"DetachedRoot for inode {rootInodeId} has no directory inode")
  rejectIf (rootInode.inodeId ≠ rootInodeId) (.internal
    s!"DetachedRoot inode key {rootInodeId} contains inode {rootInode.inodeId}")
  rejectIf (rootInode.fileType ≠ .dir)
    (.internal s!"DetachedRoot inode {rootInodeId} is not a directory")
  rejectIf (rootInode.mountId ≠ detachedRoot.mountId) (.internal
    s!"DetachedRoot inode {rootInodeId} belongs to mount {rootInode.mountId}, marker names mount {detachedRoot.mountId}")
  let mount ← okOrElse (← getMount detachedRoot.mountId) (.internal
    s!"DetachedRoot inode {rootInodeId} references missing mount {detachedRoot.mountId}")
  rejectIf (mount.mountId ≠ detachedRoot.mountId) (.internal
    s!"mount key {detachedRoot.mountId} contains mount {mount.mountId} while reclaiming inode {rootInodeId}")
  rejectIf (mount.rootInodeId = rootInodeId)
    (.internal s!"mount root inode {rootInodeId} cannot be a DetachedRoot")
  pure mount.rootInodeId

def prepareDetachedRootEntry (parentInodeId : InodeId) (name : String)
    (childInodeId : InodeId) (parentDetachedRoot : DetachedRoot)
    (mountRootInodeId : InodeId) : StorageM DetachedRootReclaimEntry := do
  rejectIf (name = "" ∨ name.utf8ByteSize > maxPathComponentBytes ∨
      '/' ∈ name.toList ∨ '\x00' ∈ name.toList)
    (.internal s!"invalid dentry name under DetachedRoot inode {parentInodeId}")
  rejectIf (childInodeId = 0)
    (.internal s!"DetachedRoot inode {parentInodeId} references zero child inode")
  let marker ← getDetachedRoot childInodeId
  rejectIf (marker ≠ none) (.internal
    s!"inode {childInodeId} is both reachable from DetachedRoot {parentInodeId} and independently detached")
  let childInode ← okOrElse (← getInode childInodeId) (.internal
    s!"DetachedRoot inode {parentInodeId} references missing child inode {childInodeId}")
  rejectIf (childInode.inodeId ≠ childInodeId) (.internal
    s!"inode key {childInodeId} under DetachedRoot {parentInodeId} contains inode {childInode.inodeId}")
  rejectIf (childInode.mountId ≠ parentDetachedRoot.mountId) (.internal
    s!"DetachedRoot inode {parentInodeId} crosses from mount {parentDetachedRoot.mountId} to child inode {childInodeId} in mount {childInode.mountId}")
  match childInode.kind with
  | .dir => do
      rejectIf (childInodeId = mountRootInodeId) (.internal
        s!"DetachedRoot inode {parentInodeId} reaches mount root inode {childInodeId}")
      pure ⟨parentInodeId, name, childInodeId, some parentDetachedRoot⟩
  | .file _ => pure ⟨parentInodeId, name, childInodeId, none⟩

structure ReclaimState where
  update : DetachedRootReclaimUpdate
  logicalBatchBytes : ℕ
  seenCandidates : List InodeId
  plannedEntryInodeIds : List InodeId
  processedEntries : ℕ
  createdRoots : ℕ

/-- Whether a page was consumed, cut by the entry budget, or cut by the byte
budget, which ends the candidate loop. -/
inductive PageEnd
  | consumed
  | entryBudget
  | byteBudget
deriving DecidableEq, Repr

def ReclaimState.pushEntry (st : ReclaimState) (entry : DetachedRootReclaimEntry)
    (bytes : ℕ) : ReclaimState :=
  { st with
    update := { st.update with entries := st.update.entries ++ [entry] }
    logicalBatchBytes := bytes
    plannedEntryInodeIds := entry.inodeId :: st.plannedEntryInodeIds
    processedEntries := st.processedEntries + 1
    createdRoots := st.createdRoots + if entry.childDetachedRoot.isSome then 1 else 0 }

def ReclaimState.pushCompletion (st : ReclaimState) (rootInodeId : InodeId)
    (bytes : ℕ) : ReclaimState :=
  { st with
    update := { st.update with
      completedRootInodeIds := st.update.completedRootInodeIds ++ [rootInodeId] }
    logicalBatchBytes := bytes }

def ReclaimState.nothingPlanned (st : ReclaimState) : Prop :=
  st.update.entries = [] ∧ st.update.completedRootInodeIds = []

instance (st : ReclaimState) : Decidable st.nothingPlanned :=
  inferInstanceAs (Decidable (_ ∧ _))

def reclaimPage (rootInodeId : InodeId) (detachedRoot : DetachedRoot)
    (mountRootInodeId : InodeId) (maxEntries maxBatchBytes : ℕ)
    (st : ReclaimState) :
    List (String × InodeId) → StorageM (PageEnd × ReclaimState)
  | [] => pure (.consumed, st)
  | (name, childInodeId) :: rest =>
    if st.processedEntries = maxEntries then pure (.entryBudget, st)
    else do
      rejectIf (childInodeId ∈ st.plannedEntryInodeIds)
        (.internal s!"detached-root forest contains duplicate inode {childInodeId}")
      let entry ← prepareDetachedRootEntry rootInodeId name childInodeId
        detachedRoot mountRootInodeId
      let nextLogicalBytes ← okOrElse
        (checkedAddU64 st.logicalBatchBytes (← entry.logicalBytes))
        logicalByteOverflow
      if nextLogicalBytes > maxBatchBytes then do
        rejectIf st.nothingPlanned (.internal
          s!"detached-root entry {childInodeId} requires {nextLogicalBytes} logical bytes, exceeding batch budget {maxBatchBytes}")
        pure (.byteBudget, st)
      else
        reclaimPage rootInodeId detachedRoot mountRootInodeId maxEntries
          maxBatchBytes (st.pushEntry entry nextLogicalBytes) rest

/-- Retire a root whose entries are all planned; `false` ends the candidate loop
on the byte budget. -/
def reclaimCompletion (maxBatchBytes : ℕ) (st : ReclaimState) (rootInodeId : InodeId) :
    StorageM (Bool × ReclaimState) := do
  let nextLogicalBytes ← okOrElse
    (checkedAddU64 st.logicalBatchBytes (← completedRootLogicalBytes))
    logicalByteOverflow
  if nextLogicalBytes > maxBatchBytes then do
    rejectIf st.nothingPlanned (.internal
      s!"detached-root completion for inode {rootInodeId} requires {nextLogicalBytes} logical bytes, exceeding batch budget {maxBatchBytes}")
    pure (false, st)
  else pure (true, st.pushCompletion rootInodeId nextLogicalBytes)

/-- The body of the candidate loop for a marked candidate, and whether the loop
goes on. -/
def reclaimRoot (maxEntries maxBatchBytes : ℕ) (st : ReclaimState)
    (rootInodeId : InodeId) (detachedRoot : DetachedRoot) :
    StorageM (Bool × ReclaimState) := do
  let mountRootInodeId ← validateDetachedRoot rootInodeId detachedRoot
  let scanLimit := max (maxEntries - st.processedEntries) 1
  let (entries, eof) ← listDentriesForReclaim rootInodeId scanLimit
  let (pageEnd, st) ← reclaimPage rootInodeId detachedRoot mountRootInodeId
    maxEntries maxBatchBytes st entries
  if pageEnd = .byteBudget then pure (false, st)
  else if pageEnd = .consumed ∧ eof = true then
    reclaimCompletion maxBatchBytes st rootInodeId
  else pure (true, st)

def reclaimCandidates (maxEntries maxBatchBytes : ℕ) (st : ReclaimState) :
    List InodeId → StorageM ReclaimState
  | [] => pure st
  | rootInodeId :: rest =>
    if rootInodeId ∈ st.seenCandidates then
      reclaimCandidates maxEntries maxBatchBytes st rest
    else do
      let st := { st with seenCandidates := rootInodeId :: st.seenCandidates }
      match ← getDetachedRoot rootInodeId with
      | none => reclaimCandidates maxEntries maxBatchBytes st rest
      | some detachedRoot => do
          let (goOn, st) ←
            reclaimRoot maxEntries maxBatchBytes st rootInodeId detachedRoot
          if goOn then reclaimCandidates maxEntries maxBatchBytes st rest
          else pure st

def expectU32 (value : ℕ) (message : String) : StorageM ℕ :=
  Transaction.okOr (if value < 2 ^ 32 then some value else none)
    (.panicked message)

def applyReclaimDetachedRoots (candidates : List InodeId)
    (maxEntries maxBatchBytes : ℕ) (raftState : AppMetadataRaftState) :
    StorageM DetachedRootReclaimResult := do
  ofResult (validateDetachedRootReclaimCommand candidates maxEntries maxBatchBytes)
  let base ← (DetachedRootReclaimUpdate.mk [] []).logicalBatchBytes raftState
  rejectIf (base > maxBatchBytes) (.internal
    s!"Raft apply state requires {base} logical bytes, exceeding detached-root batch budget {maxBatchBytes}")
  let st ← reclaimCandidates maxEntries maxBatchBytes
    { update := ⟨[], []⟩, logicalBatchBytes := base, seenCandidates := [],
      plannedEntryInodeIds := [], processedEntries := 0, createdRoots := 0 } candidates
  let verified ← st.update.logicalBatchBytes raftState
  rejectIf (verified ≠ st.logicalBatchBytes) (.internal
    s!"detached-root logical byte accounting diverged: prepared={st.logicalBatchBytes}, verified={verified}")
  reclaimDetachedRootsAtomic st.update raftState
  let processedEntries ← expectU32 st.processedEntries
    "processed entries are bounded by a u32 protocol limit"
  let completedRoots ← expectU32 st.update.completedRootInodeIds.length
    "candidate roots are bounded by a u32 protocol limit"
  let createdRoots ← expectU32 st.createdRoots
    "created roots are bounded by a u32 protocol limit"
  let logicalBatchBytes ← expectU32 st.logicalBatchBytes
    "logical bytes are bounded by a u32 protocol limit"
  pure { processedEntries, completedRoots, createdRoots, logicalBatchBytes }

end Beryl
