import Beryl.SessionRegistry

/-!
# The payload check of the leader

`validate_committed_blocks` compares the payload of a close or a sync with the targets
that were issued to the session.  What it accepts is a run of consecutive blocks, in
order, from the first changed block to the end of the file.
-/

namespace Beryl

open List

structure CloseWriteIntent where
  committedBlocks : List CommittedBlock
  finalSize : ℕ
  expectedFileSize : ℕ
deriving DecidableEq

def publishModeForSession (session : WriteSession) : PublishMode :=
  match session.mode with
  | .overwrite => .replaceIfUnchanged
  | .append => .appendIfUnchanged

/-- The target issued for a block; in the map built from the list the last one wins. -/
def WriteSession.issuedTarget (session : WriteSession) (blockId : BlockId) :
    Option LocatedBlock :=
  session.issuedTargets.reverse.find? fun target => target.blockId = blockId

def CloseWriteIntent.start (intent : CloseWriteIntent) (session : WriteSession)
    (count : ℕ) : ℕ :=
  if session.mode = .overwrite then 0
  else if intent.finalSize = session.baseSize ∧ intent.committedBlocks = [] then count
  else session.baseSize / session.layout.blockSize

/-- The loop over the payload, from the block at `ordinal` on. -/
def checkCommittedBlocks (session : WriteSession) (finalSize : ℕ) :
    ℕ → List BlockId → List CommittedBlock → MetadataResult Unit
  | _, _, [] => .ok ()
  | ordinal, seen, block :: blocks =>
    match session.issuedTarget block.blockId with
    | none => .error (.invalidArgument "block was not issued to this writer")
    | some target =>
      if block.blockId.inodeId ≠ session.inodeId ∨ block.blockId ∈ seen ∨
          target.fileOffset ≠ ordinal * session.layout.blockSize ∨
          block.len ≠ min (finalSize - ordinal * session.layout.blockSize)
            session.layout.blockSize then
        .error (.invalidArgument "invalid ordered publication block")
      else checkCommittedBlocks session finalSize (ordinal + 1) (block.blockId :: seen) blocks

def validateCommittedBlocks (intent : CloseWriteIntent) (session : WriteSession) :
    MetadataResult (List CommittedBlock) :=
  if intent.expectedFileSize ≠ session.baseSize then
    .error (.invalidArgument "expected file size does not match session")
  else
    match FileData.blockCount intent.finalSize session.layout.blockSize with
    | .error error => .error error
    | .ok count =>
      if (session.mode = .append ∧ intent.finalSize < session.baseSize) ∨
          intent.start session count > count ∨
          intent.committedBlocks.length ≠ count - intent.start session count then
        .error (.invalidArgument "publication does not cover the target length")
      else
        match checkCommittedBlocks session intent.finalSize (intent.start session count) []
            intent.committedBlocks with
        | .error error => .error error
        | .ok () => .ok intent.committedBlocks

/-- The block of a payload stands for an issued target at its place. -/
structure CommittedBlock.FitsAt (block : CommittedBlock) (session : WriteSession)
    (finalSize ordinal : ℕ) : Prop where
  issued : ∃ target ∈ session.issuedTargets, target.blockId = block.blockId ∧
    target.fileOffset = ordinal * session.layout.blockSize
  inode : block.blockId.inodeId = session.inodeId
  len : block.len = min (finalSize - ordinal * session.layout.blockSize)
    session.layout.blockSize

variable {session : WriteSession}

theorem WriteSession.issuedTarget_eq_some {blockId : BlockId}
    {target : LocatedBlock} (h : session.issuedTarget blockId = some target) :
    target ∈ session.issuedTargets ∧ target.blockId = blockId := by
  unfold issuedTarget at h
  have hid := find?_some h
  exact ⟨mem_reverse.1 (mem_of_find?_eq_some h), of_decide_eq_true hid⟩

variable {blocks : List CommittedBlock}

theorem checkCommittedBlocks_ok {finalSize ordinal : ℕ} {seen : List BlockId}
    (h : checkCommittedBlocks session finalSize ordinal seen blocks = .ok ()) :
    (∀ (index : ℕ) (block : CommittedBlock), blocks[index]? = some block →
      block.FitsAt session finalSize (ordinal + index)) ∧
    (blocks.map CommittedBlock.blockId).Nodup ∧ ∀ block ∈ blocks, block.blockId ∉ seen := by
  induction blocks generalizing ordinal seen with
  | nil => exact ⟨nofun, nodup_nil, nofun⟩
  | cons block blocks ih =>
    simp only [checkCommittedBlocks] at h
    split at h
    · cases h
    next target htarget =>
      split at h
      · cases h
      next hfits =>
        obtain ⟨hinode, hseen, hoffset, hlen⟩ := by
          simpa only [not_or, not_not, ne_eq] using hfits
        obtain ⟨hmem, hid⟩ := WriteSession.issuedTarget_eq_some htarget
        obtain ⟨hrest, hnodup, hfresh⟩ := ih h
        refine ⟨?_, ?_, ?_⟩
        · intro index found hfound
          cases index with
          | zero =>
            cases hfound
            exact ⟨⟨target, hmem, hid, hoffset⟩, hinode, hlen⟩
          | succ index =>
            have hfit := hrest index found hfound
            rwa [Nat.add_assoc, Nat.add_comm 1] at hfit
        · refine nodup_cons.2 ⟨?_, hnodup⟩
          intro hrepeat
          obtain ⟨other, hother, heq⟩ := mem_map.1 hrepeat
          exact hfresh other hother (heq ▸ mem_cons_self)
        · intro other hother
          rcases mem_cons.1 hother with rfl | hother
          · exact hseen
          · exact fun hin => hfresh other hother (mem_cons_of_mem _ hin)

structure CloseWriteIntent.Accepted (intent : CloseWriteIntent) (session : WriteSession)
    (count : ℕ) : Prop where
  expected : intent.expectedFileSize = session.baseSize
  count_eq : FileData.blockCount intent.finalSize session.layout.blockSize = .ok count
  grows : session.mode = .append → session.baseSize ≤ intent.finalSize
  start_le : intent.start session count ≤ count
  length_eq : intent.committedBlocks.length = count - intent.start session count
  fits : ∀ (index : ℕ) (block : CommittedBlock), intent.committedBlocks[index]? = some block →
    block.FitsAt session intent.finalSize (intent.start session count + index)
  distinct : (intent.committedBlocks.map CommittedBlock.blockId).Nodup

theorem validateCommittedBlocks_ok {intent : CloseWriteIntent}
    (h : validateCommittedBlocks intent session = .ok blocks) :
    blocks = intent.committedBlocks ∧ ∃ count, intent.Accepted session count := by
  unfold validateCommittedBlocks at h
  split at h
  · cases h
  next hexpected =>
    split at h
    · cases h
    next count hcount =>
      split at h
      · cases h
      next hcovers =>
        obtain ⟨hgrows, hstart, hlength⟩ := by
          simpa only [not_or, not_not, ne_eq, gt_iff_lt, not_lt] using hcovers
        split at h
        · cases h
        next hcheck =>
          obtain ⟨hfits, hdistinct, -⟩ := checkCommittedBlocks_ok hcheck
          refine ⟨(Except.ok.inj h).symm, count, not_not.1 hexpected, hcount, ?_, hstart, hlength,
            hfits, hdistinct⟩
          intro happend
          exact not_lt.1 fun hlt => hgrows ⟨happend, hlt⟩

end Beryl
