import Beryl.Types

/-!
# Write targets

What the leader hands to a client that may write one block: the block, its place
in the file, the Workers that hold it and the token that fences other writers.
-/

namespace Beryl

inductive WriteMode
  | overwrite
  | append
deriving DecidableEq, Repr

/-- `FencingToken`: one block, its writer, and the lease epoch of the writer. -/
structure FencingToken where
  blockId : BlockId
  owner : ClientId
  epoch : LeaseEpoch
deriving DecidableEq, Repr

inductive Tier
  | mem
  | nvme
  | ssd
  | hdd
deriving DecidableEq, Repr

inductive WorkerNetProtocol
  | grpc
deriving DecidableEq, Repr

abbrev WorkerRunId := ℕ

structure WorkerEndpointInfo where
  workerId : WorkerId
  endpoint : String
  workerNetProtocol : WorkerNetProtocol
  workerRunId : WorkerRunId
deriving DecidableEq, Repr

structure LocatedBlock where
  blockId : BlockId
  fileOffset : ℕ
  blockSize : ℕ
  workerEndpoints : List WorkerEndpointInfo
  fencingToken : FencingToken
  writeOffset : ℕ
  chunkSize : ℕ
  blockFormatId : BlockFormatId
  tier : Tier
deriving DecidableEq, Repr

structure BlockShape where
  blockFormatId : BlockFormatId
  blockSize : ℕ
  chunkSize : ℕ
  effectiveLen : ℕ
deriving DecidableEq, Repr

def BlockShapeError.display : BlockShapeError → String
  | .zeroBlockSize => "block_size must be non-zero"
  | .blockTooLarge actual maximum => s!"block_size {actual} exceeds maximum {maximum}"
  | .storageChunkSizeMismatch expected got =>
    s!"storage_chunk_size mismatch: expected {expected}, got {got}"
  | .unknownBlockFormat error => error.display
  | .zeroEffectiveLen => "effective_len must be non-zero"
  | .effectiveLenExceedsBlock => "effective_len must not exceed block_size"

def BlockShape.new (blockFormatId : BlockFormatId) (blockSize chunkSize effectiveLen : ℕ) :
    Except BlockShapeError BlockShape :=
  match checkBlockShape blockFormatId blockSize chunkSize effectiveLen with
  | .error error => .error error
  | .ok () => .ok ⟨blockFormatId, blockSize, chunkSize, effectiveLen⟩

def BlockShape.forEffectiveLen (layout : FileLayout) (effectiveLen : ℕ) :
    Except BlockShapeError BlockShape :=
  match layout.blockFormatId.spec with
  | .error error => .error (.unknownBlockFormat error)
  | .ok format =>
    BlockShape.new layout.blockFormatId layout.blockSize format.storageChunkSize effectiveLen

theorem BlockShape.new_eq_ok {blockFormatId : BlockFormatId}
    {blockSize chunkSize effectiveLen : ℕ} {shape : BlockShape}
    (h : BlockShape.new blockFormatId blockSize chunkSize effectiveLen = .ok shape) :
    shape = ⟨blockFormatId, blockSize, chunkSize, effectiveLen⟩ := by
  unfold BlockShape.new at h
  split at h
  · cases h
  · cases h
    rfl

end Beryl
