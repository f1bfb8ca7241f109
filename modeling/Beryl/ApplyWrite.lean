import Beryl.Command
import Beryl.StorageTransactions

/-!
# Applying file commands

Block allocation, write leases and publication.  Every mutation here is one put
of the file's inode.
-/

namespace Beryl

def ensureFileInodeAuthority (inodeId : InodeId) (inode : Inode) :
    StorageM Unit := do
  rejectIf (inode.inodeId ≠ inodeId ∨ inode.fileType ≠ .file)
    (.internal s!"invalid file authority for inode {inodeId}")
  let file ← ofResult inode.file
  ofResult (file.validate inodeId)

def loadFileInode (inodeId : InodeId) : StorageM Inode := do
  let inode ← okOrElse (← getInode inodeId) (.notFound s!"inode {inodeId}")
  ensureFileInodeAuthority inodeId inode
  pure inode

def u32TryFrom (value : ℕ) : Option ℕ :=
  if value < 2 ^ 32 then some value else none

def applyAllocateBlock (inodeId : InodeId) (leaseEpoch : LeaseEpoch)
    (raftState : AppMetadataRaftState) : StorageM BlockId := do
  let inode ← loadFileInode inodeId
  let file ← ofResult inode.file
  rejectIf (file.leaseEpoch ≠ leaseEpoch)
    (.leaseFenced file.leaseEpoch leaseEpoch)
  let index ← okOrElse (u32TryFrom file.nextIndex)
    (.invalidArgument "block index exhausted")
  putInodeAtomic (inode.withFile { file with nextIndex := file.nextIndex + 1 })
    raftState
  pure ⟨inodeId, index⟩

/-- The created file still belongs to the session its replay record reserves. -/
def CreateFileReplayRecord.ownsInitialSession (record : CreateFileReplayRecord)
    (file : FileData) (proposedAtMs : ℕ) : Prop :=
  record.expiresAtMs > proposedAtMs ∧ file.len = 0 ∧ file.nextIndex = 0 ∧
    file.generation = record.generation ∧ file.leaseEpoch = record.leaseEpoch

instance (record : CreateFileReplayRecord) (file : FileData) (proposedAtMs : ℕ) :
    Decidable (record.ownsInitialSession file proposedAtMs) :=
  inferInstanceAs (Decidable (_ ∧ _ ∧ _ ∧ _ ∧ _))

def rejectInitialSession (replay : Option CreateFileReplayRecord)
    (file : FileData) (proposedAtMs : ℕ) : StorageM Unit :=
  match replay with
  | none => pure ()
  | some record =>
    rejectIf (record.ownsInitialSession file proposedAtMs)
      (.again "CreateFile replay still owns the initial session")

def applyAcquireWriteLease (inodeId : InodeId) (expectedLeaseEpoch : LeaseEpoch)
    (proposedAtMs : ℕ) (raftState : AppMetadataRaftState) :
    StorageM LeaseEpoch := do
  let inode ← loadFileInode inodeId
  let file ← ofResult inode.file
  rejectInitialSession (← getCreateFileReplayForInode inodeId) file proposedAtMs
  rejectIf (file.leaseEpoch ≠ expectedLeaseEpoch)
    (.again "write lease epoch changed")
  let next ← okOrElse (checkedNext file.leaseEpoch)
    (.invalidArgument "write lease epoch overflow")
  putInodeAtomic (inode.withFile { file with leaseEpoch := next }) raftState
  pure next

def applyEndWriteLease (inodeId : InodeId) (leaseEpoch : LeaseEpoch)
    (raftState : AppMetadataRaftState) : StorageM LeaseEpoch := do
  let inode ← loadFileInode inodeId
  let file ← ofResult inode.file
  let next ← okOrElse (checkedNext leaseEpoch)
    (.invalidArgument "write lease epoch overflow")
  if file.leaseEpoch = next then do
    commitAppliedState raftState
    pure next
  else do
    rejectIf (file.leaseEpoch ≠ leaseEpoch)
      (.leaseFenced file.leaseEpoch leaseEpoch)
    putInodeAtomic (inode.withFile { file with leaseEpoch := next }) raftState
    pure next

/-- A prepared publication: the inode to store, its generation, and whether the
content changed. -/
structure PreparedPublication where
  inode : Inode
  generation : ContentGeneration
  changed : Bool
deriving DecidableEq, Repr

def prepareFilePublication (inode : Inode) (publication : FilePublication)
    (proposedAtMs : ℕ) : MetadataResult PreparedPublication :=
  match inode.file with
  | .error error => .error error
  | .ok file =>
    if file.leaseEpoch ≠ publication.leaseEpoch then
      .error (.leaseFenced file.leaseEpoch publication.leaseEpoch)
    else
      match publication.matchesVisible file with
      | .error error => .error error
      | .ok isVisible =>
        if checkedNext publication.expectedGeneration = some file.generation ∧
            isVisible = true then
          .ok ⟨inode, file.generation, false⟩
        else if file.generation ≠ publication.expectedGeneration ∨
            file.len ≠ publication.expectedFileSize then
          .error (.again "file publication precondition changed")
        else if isVisible = true then .ok ⟨inode, file.generation, false⟩
        else
          match publication.mergedBlocks inode.inodeId file with
          | .error error => .error error
          | .ok blocks =>
            match checkedNext file.generation with
            | none =>
              .error (.invalidArgument "content generation overflow")
            | some generation =>
              let published := inode.withFile
                { file with blocks, len := publication.targetSize, generation,
                            lastCommit := none }
              .ok ⟨{ published with
                attrs := published.attrs.setModifyTime proposedAtMs },
                generation, true⟩

def applyPublishFile (inodeId : InodeId) (publication : FilePublication)
    (proposedAtMs : ℕ) (raftState : AppMetadataRaftState) :
    StorageM ContentGeneration := do
  let inode ← loadFileInode inodeId
  let prepared ← ofResult (prepareFilePublication inode publication proposedAtMs)
  if prepared.changed then putInodeAtomic prepared.inode raftState
  else commitAppliedState raftState
  pure prepared.generation

/-- The completion evidence of a commit that ended at `generation`. -/
def FilePublication.evidence (publication : FilePublication)
    (clientId : ClientId) (callId : CallId) (generation : ContentGeneration) :
    FileCommit where
  clientId := clientId
  callId := callId
  leaseEpoch := publication.leaseEpoch
  expectedGeneration := publication.expectedGeneration
  expectedFileSize := publication.expectedFileSize
  mode := publication.mode
  committedSize := publication.targetSize
  generation := generation

def applyCommitFile (inodeId : InodeId) (clientId : ClientId) (callId : CallId)
    (publication : FilePublication) (proposedAtMs : ℕ)
    (raftState : AppMetadataRaftState) : StorageM ContentGeneration := do
  let inode ← loadFileInode inodeId
  match ← ofResult (publication.resolveCommit inode clientId callId) with
  | some generation => do
      commitAppliedState raftState
      pure generation
  | none => do
      let file ← ofResult inode.file
      rejectIf (file.generation ≠ publication.expectedGeneration)
        (.again "CommitFile generation changed without completion evidence")
      let endedEpoch ← okOrElse (checkedNext publication.leaseEpoch)
        (.invalidArgument "write lease epoch overflow")
      let prepared ← ofResult (prepareFilePublication inode publication proposedAtMs)
      let published ← ofResult prepared.inode.file
      putInodeAtomic (prepared.inode.withFile
        { published with
          leaseEpoch := endedEpoch
          lastCommit := some
            (publication.evidence clientId callId prepared.generation) }) raftState
      pure prepared.generation

end Beryl
