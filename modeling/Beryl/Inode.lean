import Beryl.Types

/-!
# Inode state and file publication

Inode attributes, the fixed-block shape of a file, and the pure part of
publishing content: locating the changed tail, merging blocks, and recognising
the replay of a completed commit.
-/

namespace Beryl

def InodeAttrs.new : InodeAttrs := ⟨0, 0⟩

def InodeAttrs.initializeAt (_attrs : InodeAttrs) (nowMs : ℕ) : InodeAttrs :=
  ⟨nowMs, nowMs⟩

/-- Modification time never moves back, whatever the proposal clock says. -/
def InodeAttrs.setModifyTime (attrs : InodeAttrs) (nowMs : ℕ) : InodeAttrs :=
  { attrs with modifyTime := max attrs.modifyTime nowMs }

/-- The blocks a length takes: `len / capacity` rounded up, without overflow. -/
def FileData.requiredBlocks (len capacity : ℕ) : ℕ :=
  if len = 0 then 0 else (len - 1) / capacity + 1

def FileData.blockCount (len capacity : ℕ) : MetadataResult ℕ :=
  if capacity = 0 then .error (.invalidArgument "zero block capacity")
  else if FileData.requiredBlocks len capacity > maxFileBlocks then
    .error (.resourceExhausted "file exceeds inline block limit")
  else .ok (FileData.requiredBlocks len capacity)

/-- The identities of a block list: every block belongs to the inode, was
allocated, and occurs once.  `seen` is the set the source accumulates. -/
def blockIdentitiesValid (inodeId : InodeId) (nextIndex : ℕ)
    (seen : List BlockId) : List BlockId → Bool
  | [] => true
  | block :: rest =>
    if block.inodeId ≠ inodeId ∨ block.index ≥ nextIndex ∨ block ∈ seen then
      false
    else blockIdentitiesValid inodeId nextIndex (block :: seen) rest

def FileData.validate (file : FileData) (inodeId : InodeId) :
    MetadataResult Unit :=
  match file.layout.validate with
  | .error error => .error (.internal s!"invalid file layout: {error.display}")
  | .ok () =>
    match FileData.blockCount file.len file.layout.blockSize with
    | .error error => .error error
    | .ok count =>
      if file.blocks.length ≠ count then
        .error (.internal "file length disagrees with its block count")
      else if !blockIdentitiesValid inodeId file.nextIndex [] file.blocks then
        .error (.internal "file contains invalid block identities")
      else .ok ()

def Inode.len (inode : Inode) : ℕ :=
  match inode.kind with
  | .file file => file.len
  | .dir => 0

def Inode.file (inode : Inode) : MetadataResult FileData :=
  match inode.kind with
  | .file file => .ok file
  | .dir => .error (.isDir s!"inode {inode.inodeId} is not a file")

/-- Store an edited file payload, as the source does through `file_mut`. -/
def Inode.withFile (inode : Inode) (file : FileData) : Inode :=
  { inode with kind := .file file }

def Inode.fileType (inode : Inode) : FileType :=
  match inode.kind with
  | .file _ => .file
  | .dir => .dir

def Inode.newDir (inodeId : InodeId) (attrs : InodeAttrs) (mountId : MountId) :
    Inode where
  inodeId := inodeId
  attrs := attrs
  mountId := mountId
  kind := .dir

def FilePublication.visibleBlockLen (len capacity ordinal : ℕ) : ℕ :=
  min (len - ordinal * capacity) capacity

/-- Every block from `ordinal` on has the length its position requires. -/
def FilePublication.blockLensMatch (targetSize capacity : ℕ) :
    ℕ → List CommittedBlock → Bool
  | _, [] => true
  | ordinal, block :: rest =>
    block.len = FilePublication.visibleBlockLen targetSize capacity ordinal &&
      FilePublication.blockLensMatch targetSize capacity (ordinal + 1) rest

def FilePublication.tailIndex (publication : FilePublication) (file : FileData)
    (count : ℕ) : MetadataResult ℕ :=
  match publication.mode with
  | .replaceIfUnchanged => .ok 0
  | .appendIfUnchanged =>
    if publication.targetSize < publication.expectedFileSize then
      .error (.invalidArgument "append cannot shrink visible content")
    else if publication.blocks = [] ∧
        publication.targetSize = publication.expectedFileSize then
      .ok count
    else .ok (publication.expectedFileSize / file.layout.blockSize)

def FilePublication.startIndex (publication : FilePublication)
    (file : FileData) : MetadataResult ℕ :=
  match FileData.blockCount publication.targetSize file.layout.blockSize with
  | .error error => .error error
  | .ok count =>
    match publication.tailIndex file count with
    | .error error => .error error
    | .ok start =>
      if start > count ∨ publication.blocks.length ≠ count - start then
        .error (.invalidArgument
          "publication does not cover its target length")
      else if !FilePublication.blockLensMatch publication.targetSize
          file.layout.blockSize start publication.blocks then
        .error (.invalidArgument "only the final block may be partial")
      else .ok start

/-- The visible suffix from `start` is exactly the published blocks. -/
def FilePublication.suffixVisible (publication : FilePublication)
    (file : FileData) (start : ℕ) : Bool :=
  file.len = publication.targetSize && start ≤ file.blocks.length &&
    file.blocks.drop start = publication.blocks.map CommittedBlock.blockId

def FilePublication.matchesVisible (publication : FilePublication)
    (file : FileData) : MetadataResult Bool :=
  match publication.startIndex file with
  | .error error => .error error
  | .ok start => .ok (publication.suffixVisible file start)

def FilePublication.keptBlocks (publication : FilePublication)
    (file : FileData) (start : ℕ) : MetadataResult (List BlockId) :=
  match publication.mode with
  | .replaceIfUnchanged => .ok []
  | .appendIfUnchanged =>
    if file.len ≠ publication.expectedFileSize ∨ start > file.blocks.length then
      .error (.again "append base no longer matches visible content")
    else if start < file.blocks.length ∧
        (publication.blocks.head?.map CommittedBlock.blockId) ≠
          file.blocks[start]? then
      .error (.invalidArgument "append must reuse the existing partial tail")
    else .ok (file.blocks.take start)

/-- The merge loop.  The set `seen` of the source holds exactly the blocks
gathered so far, so the accumulator serves as both. -/
def FilePublication.appendBlocks (inodeId : InodeId) (file : FileData)
    (mode : PublishMode) (blocks : List BlockId) :
    List CommittedBlock → MetadataResult (List BlockId)
  | [] => .ok blocks
  | block :: rest =>
    if block.blockId.inodeId ≠ inodeId ∨
        block.blockId.index ≥ file.nextIndex ∨ block.blockId ∈ blocks then
      .error (.invalidArgument
        "publication contains a duplicate or unallocated block")
    else if mode = .replaceIfUnchanged ∧ block.blockId ∈ file.blocks then
      .error (.invalidArgument "replacement requires new block identities")
    else
      FilePublication.appendBlocks inodeId file mode
        (blocks ++ [block.blockId]) rest

def FilePublication.mergedBlocks (publication : FilePublication)
    (inodeId : InodeId) (file : FileData) : MetadataResult (List BlockId) :=
  match file.validate inodeId with
  | .error error => .error error
  | .ok () =>
    match publication.startIndex file with
    | .error error => .error error
    | .ok start =>
      match publication.keptBlocks file start with
      | .error error => .error error
      | .ok kept =>
        FilePublication.appendBlocks inodeId file publication.mode kept
          publication.blocks

def FileCommit.disagrees (commit : FileCommit) (file : FileData) : Bool :=
  commit.generation ≠ file.generation || commit.committedSize ≠ file.len ||
    match checkedNext commit.leaseEpoch with
    | none => true
    | some ended => file.leaseEpoch < ended

/-- The frozen scalars of a publication differ from the recorded commit. -/
def FileCommit.payloadDiffers (commit : FileCommit)
    (publication : FilePublication) : Bool :=
  commit.leaseEpoch ≠ publication.leaseEpoch ||
    commit.expectedGeneration ≠ publication.expectedGeneration ||
    commit.expectedFileSize ≠ publication.expectedFileSize ||
    commit.mode ≠ publication.mode ||
    commit.committedSize ≠ publication.targetSize

def payloadChanged : MetadataError :=
  .invalidArgument "CommitFile payload changed for a completed operation"

def FilePublication.resolveCommit (publication : FilePublication)
    (inode : Inode) (clientId : ClientId) (callId : CallId) :
    MetadataResult (Option ContentGeneration) :=
  match inode.file with
  | .error error => .error error
  | .ok file =>
    match file.lastCommit with
    | none => .ok none
    | some commit =>
      if commit.clientId ≠ clientId ∨ commit.callId ≠ callId then .ok none
      else if commit.disagrees file then
        .error (.internal "CommitFile evidence disagrees with its inode")
      else if commit.payloadDiffers publication then .error payloadChanged
      else
        match publication.matchesVisible file with
        | .error error => .error error
        | .ok false => .error payloadChanged
        | .ok true => .ok (some commit.generation)

end Beryl
