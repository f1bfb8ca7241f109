import Beryl.ClientLayout

/-!
# What a successful barrier of a file writer has published

A file writer hands frames to one Worker stream at a time and publishes the finished blocks by
`sync` and `close`.  Any of its futures can be dropped at an await: a stream that was being
finished is then lost together with its frames, and a barrier stays frozen.  The steps below are
the pieces of `write_all`, `sync`, `renew_lease` and `close` between two awaits, so every sequence
of calls, with any of them cut short, is a run of them.

Beside the writer stand the two parties it talks to.  Workers keep the bytes of every stream
that ended normally and may do what they like with the rest.  Metadata places the targets it
allocates, and publishes a payload only as `FilePublication::merged_blocks` accepts it; its answer
may or may not reach the writer.
-/

namespace Beryl.Client

open Transaction FilePublication Beryl.Client.WriteSession Writing List FileData

/-! ## The writer and its environment -/

structure WriterWorld where
  /-- The session of the writer and the target of its `active_block`. -/
  writing : Writing
  /-- The bytes that the open stream has accepted. -/
  frames : List UInt8
  /-- The bytes that all streams have accepted, in order. -/
  accepted : List UInt8
  /-- What the Workers hold of a block. -/
  workers : BlockId → List UInt8
  /-- The length of a block that the last normally ended stream has checkpointed. -/
  promised : BlockId → ℕ
  /-- The file as Metadata has published it. -/
  file : FileData
  /-- Whether Metadata has answered the frozen barrier. -/
  acknowledged : Bool

inductive WriterStep
  | guard (operation : WriteSessionOperation) (nowMs : ℕ)
  | openBlock (group : GroupName) (allocated : LocatedBlock) (nowMs : ℕ)
  | writeFrame (frame : List UInt8)
  | finishBlock
  | dropBlock
  | startSync (callId : CallId)
  | publishSync (nextIndex : ℕ)
  | returnSync
  | startClose (callId : CallId)
  | publishCommit (nextIndex : ℕ)
  | returnClose
  | renew (expiresAtMs : ℕ)
  | fail (state : WriteSessionState)
  | workerChanges (block : BlockId) (bytes : List UInt8)

def SyncWriteState.publication (plan : SyncWriteState) : FilePublication where
  blocks := plan.committedBlocks
  targetSize := plan.targetSize
  expectedGeneration := plan.expectedGeneration
  expectedFileSize := plan.expectedFileSize
  leaseEpoch := plan.writeHandle.leaseEpoch
  mode := publishMode plan.writeMode

def CommitFileState.publication (plan : CommitFileState) : FilePublication where
  blocks := plan.commitCommittedBlocksSnapshot
  targetSize := plan.commitFinalSize
  expectedGeneration := plan.expectedGeneration
  expectedFileSize := plan.expectedFileSize
  leaseEpoch := plan.commitWriteHandle.leaseEpoch
  mode := publishMode plan.writeMode

namespace WriterWorld

variable (world : WriterWorld)

abbrev session : WriteSession := world.writing.session

/-- The inode of the file; its times and its mount play no part here. -/
def inode (nextIndex : ℕ) : Inode where
  inodeId := world.session.inodeId
  attrs := ⟨0, 0⟩
  kind := .file { world.file with nextIndex := nextIndex }
  mountId := rootMountId

/-- The file once a publication is accepted, with `nextIndex` blocks allocated. -/
def prepared (publication : FilePublication) (nextIndex : ℕ) : MetadataResult FileData := do
  let prepared ← prepareFilePublication (world.inode nextIndex) publication 0
  prepared.inode.file

def publish (publication : FilePublication) (nextIndex : ℕ) : WriterWorld :=
  match world.prepared publication nextIndex with
  | .error _ => world
  | .ok file => { world with file := file, acknowledged := true }

def CanPublish (publication : FilePublication) (nextIndex : ℕ) : Prop :=
  world.acknowledged = false ∧ publication.expectedGeneration = world.file.generation ∧
    ∃ file, world.prepared publication nextIndex = .ok file

/-- The last byte of the open stream, counted from the start of its block. -/
def writtenLen (target : LocatedBlock) : ℕ := target.writeOffset + world.frames.length

/-- When a step can be taken.  A frame fits into its block and the cursor; a stream that ends
normally has at least one byte in its block, and the Worker had the bytes before its offset. -/
def Enabled : WriterStep → Prop
  | .guard _ _ | .dropBlock | .renew _ => True
  | .openBlock group allocated nowMs =>
    world.writing.opened = none ∧ world.writing.Aligned (.openBlock group allocated nowMs) ∧
      (world.session.reusableTail = none → allocated.blockId ∉ world.file.blocks ∧
        ∀ block ∈ world.session.readyBlocks, block.target.blockId ≠ allocated.blockId)
  | .writeFrame frame => ∃ target, world.writing.opened = some target ∧
      world.writtenLen target + frame.length ≤ target.blockSize ∧
      world.session.cursor + frame.length < 2 ^ 64
  | .finishBlock => ∃ target, world.writing.opened = some target ∧
      1 ≤ world.writtenLen target ∧
      target.writeOffset ≤ (world.workers target.blockId).length
  | .startSync _ | .startClose _ => world.writing.opened = none
  | .publishSync nextIndex => ∃ plan, world.session.sync = some plan ∧
      world.CanPublish plan.publication nextIndex
  | .returnSync => world.acknowledged = true ∧ world.session.state = .syncPending
  | .publishCommit nextIndex => ∃ plan, world.session.commit = some plan ∧
      world.CanPublish plan.publication nextIndex
  | .returnClose => world.acknowledged = true ∧
      world.session.state ∈ [WriteSessionState.commitStarted, .commitUnknown]
  | .fail state => state ∉ [.opened, .syncPending, .commitStarted]
  | .workerChanges block bytes => world.promised block ≤ bytes.length ∧
      bytes.take (world.promised block) = (world.workers block).take (world.promised block)

def after : WriterStep → WriterWorld
  | .guard operation nowMs =>
    { world with writing := world.writing.after (.guard operation nowMs) }
  | .openBlock group allocated nowMs =>
    { world with
      writing := world.writing.after (.openBlock group allocated nowMs)
      frames := [] }
  -- no await stands between the frame's acceptance and the move of the cursor
  | .writeFrame frame =>
    { world with
      writing := world.writing.after (.acceptFrame frame.length)
      frames := world.frames ++ frame
      accepted := world.accepted ++ frame }
  | .finishBlock =>
    match world.writing.opened with
    | none => world
    | some target =>
      { world with
        writing := world.writing.after (.finishBlock (world.writtenLen target))
        frames := []
        workers := Function.update world.workers target.blockId
          ((world.workers target.blockId).take target.writeOffset ++ world.frames)
        promised := Function.update world.promised target.blockId
          (world.writtenLen target) }
  -- the stream is cancelled, or the future that was finishing it is dropped
  | .dropBlock => { world with writing := world.writing.after .dropBlock, frames := [] }
  | .startSync callId => { world with writing := world.writing.after (.startSync callId) }
  | .publishSync nextIndex =>
    match world.session.sync with
    | none => world
    | some plan => world.publish plan.publication nextIndex
  | .returnSync =>
    { world with
      writing := world.writing.after (.completeSync world.file.generation)
      acknowledged := false }
  | .startClose callId => { world with writing := world.writing.after (.startClose callId) }
  | .publishCommit nextIndex =>
    match world.session.commit with
    | none => world
    | some plan => world.publish plan.publication nextIndex
  | .returnClose =>
    { world with
      writing := world.writing.after (.fail .closed)
      acknowledged := false }
  | .renew expiresAtMs => { world with writing := world.writing.after (.renew expiresAtMs) }
  | .fail state => { world with writing := world.writing.after (.fail state) }
  | .workerChanges block bytes =>
    { world with workers := Function.update world.workers block bytes }

end WriterWorld

abbrev WriterRun (start : WriterWorld) :=
  History.Run (fun world step world' => world.Enabled step ∧ world' = world.after step)
    (fun _ _ (_ : WriterStep) => True) start

/-- The file reads as `bytes`: block by block, from the Workers. -/
structure ReadsAs (file : FileData) (workers : BlockId → List UInt8) (bytes : List UInt8) :
    Prop where
  length_eq : bytes.length = file.len
  count_eq : file.blocks.length = FileData.requiredBlocks file.len file.layout.blockSize
  block_eq : ∀ ordinal block, file.blocks[ordinal]? = some block →
    (workers block).take
        (FilePublication.visibleBlockLen file.len file.layout.blockSize ordinal) =
      (bytes.drop (ordinal * file.layout.blockSize)).take
        (FilePublication.visibleBlockLen file.len file.layout.blockSize ordinal)

def Covered (file : FileData) (promised : BlockId → ℕ) : Prop :=
  ∀ ordinal block, file.blocks[ordinal]? = some block →
    FilePublication.visibleBlockLen file.len file.layout.blockSize ordinal ≤ promised block

/-- What `OpenWrite` finds and answers: the session of a valid file, with the partial tail of
that file, of which an append keeps the bytes. -/
structure Opens (answer : WriteSession.OpenWriteAnswer) (session : WriteSession)
    (file : FileData) (workers : BlockId → List UInt8) (promised : BlockId → ℕ)
    (kept : List UInt8) : Prop where
  session_eq : ∃ nowMs, WriteSession.writeSessionFromOpenResponse answer nowMs = .ok session
  layout_eq : answer.layout = file.layout
  baseSize_eq : answer.baseSize = file.len
  blocks_nodup : file.blocks.Nodup
  tail_aligned : answer.TailAligned
  tail_eq : ∀ tail ∈ answer.tailBlock,
    file.blocks[file.len / file.layout.blockSize]? = some tail.blockId
  held : ∀ block, promised block ≤ (workers block).length
  replaced : answer.mode = .overwrite → kept = []
  appended : answer.mode = .append → ReadsAs file workers kept ∧ Covered file promised

def WriterWorld.opened (session : WriteSession) (file : FileData)
    (workers : BlockId → List UInt8) (promised : BlockId → ℕ) : WriterWorld where
  writing := ⟨session, none⟩
  frames := []
  accepted := []
  workers := workers
  promised := promised
  file := file
  acknowledged := false

/-! ## Only flushed bytes are accepted -/

variable {len size : ℕ}

theorem requiredBlocks_le {count : ℕ} (hsize : 0 < size)
    (h : requiredBlocks len size = count) : len ≤ count * size := by
  rw [requiredBlocks_eq hsize] at h
  rw [← h, mul_comm]
  exact le_smul_ceilDiv hsize

theorem lt_of_requiredBlocks {count : ℕ} (h : requiredBlocks len size = count + 1) :
    count * size < len := by
  unfold requiredBlocks at h
  split at h
  · omega
  next hlen =>
    have hdiv : (len - 1) / size = count := by omega
    have hle := Nat.div_mul_le_self (len - 1) size
    rw [hdiv] at hle
    omega

variable {ordinal : ℕ} {file : FileData}

theorem blockLensMatch_concat {blocks : List CommittedBlock} {last : CommittedBlock}
    (h : FilePublication.blockLensMatch len size ordinal (blocks ++ [last]) = true) :
    last.len = visibleBlockLen len size (ordinal + blocks.length) := by
  induction blocks generalizing ordinal with
  | nil => simpa [blockLensMatch] using h
  | cons block rest ih =>
    simp only [cons_append, blockLensMatch, Bool.and_eq_true] at h
    rw [length_cons, ih h.2]
    congr 1
    omega

theorem Laid.flush_eq {flush ordinal : ℕ} {blocks : List ReadyBlock}
    (h : Laid size flush ordinal blocks) (hsize : 0 < size) (hstart : ordinal * size ≤ flush)
    (hle : flush ≤ len) (hcount : FileData.requiredBlocks len size = ordinal + blocks.length)
    (hlens : FilePublication.blockLensMatch len size ordinal (blocks.map ReadyBlock.committed) =
      true) : len = flush := by
  rcases List.eq_nil_or_concat' blocks with hnil | ⟨init, last, hconcat⟩
  · rw [hnil] at h hcount
    have hend := requiredBlocks_le hsize hcount
    rw [List.length_nil, Nat.add_zero] at hend
    have hflush : flush ≤ ordinal * size := h
    omega
  · rw [hconcat, laid_concat] at h
    obtain ⟨_, _, _, _, _, hend⟩ := h
    rw [hconcat, List.length_append, List.length_singleton, ← Nat.add_assoc] at hcount
    have hlow := lt_of_requiredBlocks hcount
    have hhigh := requiredBlocks_le hsize hcount
    rw [Nat.add_mul _ 1, Nat.one_mul] at hhigh
    rw [hconcat, List.map_append, List.map_singleton] at hlens
    have hlast := blockLensMatch_concat hlens
    rw [List.length_map] at hlast
    have hwritten : last.writtenLen = visibleBlockLen len size (ordinal + init.length) := hlast
    unfold visibleBlockLen at hwritten
    omega

namespace WriteSession.LaidFrom

variable {session : WriteSession} {first start : ℕ} {file : FileData}

/-- Metadata accepts a barrier only when nothing lies between the two cursors: frames of a
lost stream are not covered by any block. -/
theorem flushed_of_startIndex (h : session.LaidFrom first)
    (hbased : session.mode = .append → session.baseSize ≤ session.flushCursor)
    (hlayout : file.layout = session.layout)
    (hstart : session.publication.startIndex file = .ok start) :
    session.cursor = session.flushCursor ∧ session.WithinLimit := by
  obtain ⟨hcount, hlimit, htail, hlens⟩ := startIndex_parts hstart
  rw [hlayout] at hcount hlimit hlens
  refine ⟨?_, hlimit⟩
  have hsize := h.size_pos
  have hblocks : session.publication.blocks =
      (session.readyBlocks.filter session.unpublished).map ReadyBlock.committed := rfl
  rw [hblocks] at hcount hlens
  rw [length_map] at hcount
  cases hmode : session.mode with
  | overwrite =>
    have hzero : start = 0 := by
      simp only [tailIndex, publication, publishMode, hmode] at htail
      exact (Except.ok.inj htail).symm
    rw [filter_overwrite hmode, hzero] at hcount hlens
    have hlaid := h.laid
    rw [h.replaces hmode] at hlaid
    exact hlaid.flush_eq hsize (by omega) h.flushed hcount hlens
  | append =>
    have hbase := (h.appends hmode).2
    rcases (hbased hmode).lt_or_eq with hlt | heq
    · have hdiv : start = session.baseSize / session.layout.blockSize := by
        simp only [tailIndex, publication, publishMode, hmode] at htail
        have hmore := h.flushed
        rw [if_neg (by omega), if_neg (by omega), hlayout] at htail
        exact (Except.ok.inj htail).symm
      have hlaid := h.laid.filter_beyond hsize hlt (h.appends hmode).1
      rw [h.filter_append hmode hlt, hdiv] at hcount hlens
      have hle : session.baseSize / session.layout.blockSize * session.layout.blockSize ≤
          session.flushCursor := (Nat.div_mul_le_self _ _).trans hlt.le
      exact hlaid.flush_eq hsize hle h.flushed hcount hlens
    · by_contra hlost
      have hmore := h.flushed
      have hdiv : start = session.baseSize / session.layout.blockSize := by
        simp only [tailIndex, publication, publishMode, hmode] at htail
        rw [if_neg (by omega), if_neg (by omega), hlayout] at htail
        exact (Except.ok.inj htail).symm
      rw [h.filter_unchanged hmode heq, length_nil, Nat.add_zero, hdiv] at hcount
      have hend := requiredBlocks_le hsize hcount
      have hle := Nat.div_mul_le_self session.baseSize session.layout.blockSize
      have htarget : session.publication.targetSize = session.cursor := rfl
      omega

theorem ready_of_published (h : session.LaidFrom first)
    (hflushed : session.cursor = session.flushCursor)
    (hpublishes : session.PublishesFrom file start) {index : ℕ} {block : BlockId}
    (hblock : (session.publicationBlocks.map CommittedBlock.blockId)[index]? = some block) :
    ∃ ready ∈ session.readyBlocks, ready.target.blockId = block ∧
      ready.target.fileOffset = (start + index) * session.layout.blockSize ∧
      ready.writtenLen = visibleBlockLen session.cursor
        session.layout.blockSize (start + index) := by
  rw [hpublishes.blocks_eq, List.map_map, List.getElem?_map] at hblock
  obtain ⟨ready, hready, hid⟩ := Option.map_eq_some_iff.1 hblock
  have hmem : ready ∈ session.readyBlocks := (List.mem_filter.1 (List.mem_of_getElem? hready)).1
  have hordinal : session.ordinal ready = start + index := by
    have hmapped : ((session.blocksFrom start).map session.ordinal)[index]? =
        some (session.ordinal ready) := by
      rw [List.getElem?_map, hready]
      rfl
    rw [hpublishes.ordinals_eq] at hmapped
    have hlt := (List.getElem?_eq_some_iff.1 hmapped).1
    rw [List.getElem?_range' (by simpa using hlt)] at hmapped
    have hvalue := Option.some.inj hmapped
    omega
  obtain ⟨ordinal, hlt, hoffset, hend⟩ := h.laid.mem hmem
  have hsame : ordinal = start + index := by
    rw [← hordinal, WriteSession.ordinal, hoffset, Nat.mul_div_cancel _ h.size_pos]
  rw [hsame] at hlt hoffset hend
  refine ⟨ready, hmem, hid, hoffset, ?_⟩
  rw [hoffset, Nat.add_mul _ 1, Nat.one_mul] at hend
  rw [hflushed]
  unfold visibleBlockLen
  omega

end WriteSession.LaidFrom

theorem WriteSession.SameBytes.publication {session session' : WriteSession}
    (h : WriteSession.SameBytes session session') : session'.publication = session.publication := by
  unfold WriteSession.publication
  rw [h.publicationBlocks, h.cursor, h.generation, h.baseSize, h.writeHandle, h.mode]

namespace WriteSession

def syncPlan (session : WriteSession) (callId : CallId) : SyncWriteState where
  callId := callId
  writeHandle := session.writeHandle
  committedBlocks := session.publicationBlocks
  targetSize := session.cursor
  expectedGeneration := session.generation
  expectedFileSize := session.baseSize
  writeMode := session.mode

def commitPlan (session : WriteSession) (callId : CallId) : CommitFileState where
  commitCallId := callId
  commitWriteHandle := session.writeHandle
  commitFinalSize := session.cursor
  commitCommittedBlocksSnapshot := session.publicationBlocks
  expectedGeneration := session.generation
  expectedFileSize := session.baseSize
  writeMode := session.mode

/-- A call that freezes a plan keeps the session, or freezes an open one. -/
theorem started_snd {α : Type} {x : SessionM α} {session frozen : WriteSession}
    (hspec : Ensures x session
      (fun _ session' => session' = session ∨ session.state = .opened ∧ session' = frozen)
      (fun _ session' => session' = session)) :
    (x session).2 = session ∨ session.state = .opened ∧ (x session).2 = frozen := by
  unfold Ensures at hspec
  split at hspec
  next hrun => rwa [hrun]
  next hrun =>
    rw [hrun]
    exact .inl hspec

theorem startSync_snd (session : WriteSession) (callId : CallId) :
    (startSync callId session).2 = session ∨
      (session.state = .opened ∧ (startSync callId session).2 =
        { session with sync := some (session.syncPlan callId), state := .syncPending }) := by
  apply started_snd
  apply ensures_read
  apply ensures_read
  split
  next hstate =>
    apply ensures_write
    exact ensures_pure (.inr ⟨hstate, rfl⟩)
  · refine okOr_bind (fun _ => rfl) fun _ _ => ?_
    refine failIf_bind (fun _ => rfl) fun _ => ?_
    exact failIf_bind (fun _ => rfl) fun _ => ensures_pure (.inl rfl)
  · exact ensures_fail rfl

theorem startClose_snd (session : WriteSession) (callId : CallId) :
    (startClose callId session).2 = session ∨
      (session.state = .opened ∧ (startClose callId session).2 =
        { session with commit := some (session.commitPlan callId), state := .commitStarted }) := by
  apply started_snd
  apply ensures_read
  apply ensures_read
  split
  next hstate =>
    apply ensures_write
    exact ensures_pure (.inr ⟨hstate, rfl⟩)
  · refine okOr_bind (fun _ => rfl) fun _ _ => ?_
    refine failIf_bind (fun _ => rfl) fun _ => ?_
    exact failIf_bind (fun _ => rfl) fun _ => ensures_pure (.inl rfl)
  · refine okOr_bind (fun _ => rfl) fun _ _ => ?_
    refine failIf_bind (fun _ => rfl) fun _ => ?_
    exact failIf_bind (fun _ => rfl) fun _ => ensures_pure (.inl rfl)
  · exact ensures_fail rfl

end WriteSession

/-! ## The invariant of a writer -/

namespace WriterWorld

/-- The checkpointed bytes of a block are those that were written at `offset`. -/
structure ShowsIn (written : List UInt8) (workers : BlockId → List UInt8)
    (promised : BlockId → ℕ) (offset : ℕ) (block : BlockId) (len : ℕ) : Prop where
  promised : len ≤ promised block
  within : offset + len ≤ written.length
  bytes : (workers block).take len = (written.drop offset).take len

/-- What the blocks show of the bytes written so far; `kept` are those that an append found. -/
abbrev Shows (kept : List UInt8) (world : WriterWorld) : ℕ → BlockId → ℕ → Prop :=
  ShowsIn (kept ++ world.accepted) world.workers world.promised

abbrev Continued (world : WriterWorld) : Prop :=
  world.session.mode = .append ∨ world.acknowledged = true

/-- The visible bytes of the block at an ordinal of the published file. -/
abbrev visibleLen (world : WriterWorld) (ordinal : ℕ) : ℕ :=
  FilePublication.visibleBlockLen world.file.len world.session.layout.blockSize ordinal

abbrev Below (world : WriterWorld) (block : BlockId) (len : ℕ) : Prop :=
  (world.Continued → ∀ ordinal, world.file.blocks[ordinal]? = some block →
    world.visibleLen ordinal ≤ len) ∧
  ∀ other ∈ world.session.readyBlocks, other.target.blockId = block → other.writtenLen ≤ len

structure Sound (kept : List UInt8) (first : ℕ) (world : WriterWorld) : Prop where
  writing : world.writing.Sound first
  based : world.session.mode = .append → world.session.baseSize ≤ world.session.flushCursor
  counted : (kept ++ world.accepted).length = world.session.cursor
  held : ∀ block, world.promised block ≤ (world.workers block).length
  layout_eq : world.file.layout = world.session.layout
  ready : ∀ block ∈ world.session.readyBlocks,
    world.Shows kept block.target.fileOffset block.target.blockId block.writtenLen
  visible : world.Continued → ∀ ordinal block, world.file.blocks[ordinal]? = some block →
    world.Shows kept (ordinal * world.session.layout.blockSize) block (world.visibleLen ordinal)
  /-- The frames of the open stream follow the flush cursor, or some frames are lost. -/
  stream : (kept ++ world.accepted).drop world.session.flushCursor = world.frames ∨
    world.session.flushCursor + world.frames.length < world.session.cursor
  tail : ∀ last ∈ world.session.readyBlocks.getLast?,
    world.Below last.target.blockId last.writtenLen
  target : ∀ target ∈ world.writing.opened, world.Below target.blockId target.writeOffset ∧
    world.Shows kept target.fileOffset target.blockId target.writeOffset
  sync : ∀ plan ∈ world.session.sync, world.writing.opened = none ∧
    world.session.state ≠ .opened ∧ plan.publication = world.session.publication
  commit : ∀ plan ∈ world.session.commit, world.writing.opened = none ∧
    world.session.state ∉ [WriteSessionState.opened, .syncPending] ∧
    plan.publication = world.session.publication
  published : world.acknowledged = true → world.file.len = world.session.cursor ∧
    world.session.cursor = world.session.flushCursor ∧
    world.file.blocks.length =
      FileData.requiredBlocks world.session.cursor world.session.layout.blockSize ∧
    world.writing.opened = none ∧ world.session.state ≠ .opened

variable {kept : List UInt8} {first : ℕ} {world : WriterWorld}

section Shown

variable {written : List UInt8} {workers workers' : BlockId → List UInt8}
  {promised promised' : BlockId → ℕ} {offset len : ℕ} {block : BlockId}

theorem ShowsIn.accept (h : ShowsIn written workers promised offset block len)
    (frame : List UInt8) : ShowsIn (written ++ frame) workers promised offset block len := by
  have hwithin := h.within
  have hlong : len ≤ (written.drop offset).length := by
    rw [length_drop]
    omega
  have hdrop : (written ++ frame).drop offset = written.drop offset ++ frame :=
    drop_append_of_le_length (by omega)
  refine ⟨h.promised, ?_, ?_⟩
  · rw [length_append]
    omega
  · rw [h.bytes, hdrop, take_append_of_le_length hlong]

theorem ShowsIn.change (h : ShowsIn written workers promised offset block len)
    (hpromised : len ≤ promised' block)
    (hbytes : (workers' block).take len = (workers block).take len) :
    ShowsIn written workers' promised' offset block len :=
  ⟨hpromised, h.within, by rw [hbytes, h.bytes]⟩

end Shown

theorem Sound.stream_dropped (h : world.Sound kept first) :
    (kept ++ world.accepted).drop world.session.flushCursor = [] ∨
      world.session.flushCursor + ([] : List UInt8).length < world.session.cursor := by
  rcases h.stream with hclean | hlost
  · cases hframes : world.frames with
    | nil => exact .inl (hclean.trans hframes)
    | cons =>
      right
      have hlength := congrArg length hclean
      rw [length_drop, h.counted, hframes, length_cons] at hlength
      rw [length_nil]
      omega
  · right
    rw [length_nil]
    omega

/-! ## Steps of the client -/

variable {session : WriteSession}

theorem reusableTail_eq {tail : GroupName × LocatedBlock} (h : session.reusableTail = some tail) :
    ∃ last, session.readyBlocks.getLast? = some last ∧
      tail.2 = { last.target with writeOffset := last.writtenLen } := by
  unfold reusableTail at h
  obtain ⟨last, hlast, h⟩ := Option.bind_eq_some_iff.1 h
  split at h
  · cases h
  · obtain ⟨group, _, h⟩ := Option.bind_eq_some_iff.1 h
    cases h
    exact ⟨last, hlast, rfl⟩

theorem Below.of_kept {block : BlockId} {len : ℕ} (h : world.Below block len)
    (hkept : WriteSession.Kept world.session session) {opened : Option LocatedBlock} :
    Below { world with writing := ⟨session, opened⟩ } block len := by
  obtain ⟨path, inodeId, layout, generation, mode, writeHandle, baseSize, cursor, flushCursor,
    expiresAtMs, readyBlocks, writeGroup, state, sync, commit⟩ := session
  obtain ⟨⟨rfl, rfl, rfl, rfl, rfl, rfl, rfl, rfl, rfl, _⟩, rfl, rfl, _⟩ := hkept
  exact h

section

variable (h : world.Sound kept first)
include h

theorem Sound.of_kept
    (hkept : WriteSession.Kept world.session session) :
    Sound kept first { world with writing := ⟨session, world.writing.opened⟩ } := by
  have hwriting := h.writing.sameBytes hkept.toSameBytes
  have hpublication := hkept.toSameBytes.publication
  have hstate : ∀ state ∈ [WriteSessionState.opened, .syncPending],
      world.session.state ≠ state → session.state ≠ state := by
    intro state hmem hne heq
    rcases hkept.state with hold | hother
    · exact hne (hold ▸ heq)
    · apply hother
      rw [heq]
      simp only [mem_cons, not_mem_nil, or_false] at hmem ⊢
      tauto
  obtain ⟨path, inodeId, layout, generation, mode, writeHandle, baseSize, cursor, flushCursor,
    expiresAtMs, readyBlocks, writeGroup, state, sync, commit⟩ := session
  obtain ⟨⟨rfl, rfl, rfl, rfl, rfl, rfl, rfl, rfl, rfl, _⟩, rfl, rfl, _⟩ := hkept
  exact
    { h with
      writing := hwriting
      sync := by
        intro plan hplan
        obtain ⟨hopened, hold, hplanned⟩ := h.sync plan hplan
        exact ⟨hopened, hstate _ (by simp) hold, hplanned.trans hpublication.symm⟩
      commit := by
        intro plan hplan
        obtain ⟨hopened, hold, hplanned⟩ := h.commit plan hplan
        simp only [mem_cons, not_mem_nil, or_false, not_or] at hold ⊢
        exact ⟨hopened, ⟨hstate _ (by simp) hold.1, hstate _ (by simp) hold.2⟩,
          hplanned.trans hpublication.symm⟩
      published := by
        intro hack
        obtain ⟨hlen, hflushed, hcount, hopened, hold⟩ := h.published hack
        exact ⟨hlen, hflushed, hcount, hopened, hstate _ (by simp) hold⟩ }

theorem Sound.dropBlock : (world.after .dropBlock).Sound kept first :=
  { h with
    writing := ⟨h.writing.laidFrom, fun target hnone => by cases hnone⟩
    stream := h.stream_dropped
    target := fun target hnone => by cases hnone
    sync := fun plan hplan => ⟨rfl, (h.sync plan hplan).2⟩
    commit := fun plan hplan => ⟨rfl, (h.commit plan hplan).2⟩
    published := fun hack => by
      obtain ⟨hlen, hflushed, hcount, _, hstate⟩ := h.published hack
      exact ⟨hlen, hflushed, hcount, rfl, hstate⟩ }

theorem Sound.guard (operation : WriteSessionOperation)
    (nowMs : ℕ) : (world.after (.guard operation nowMs)).Sound kept first := by
  have hspec := ensureOperationAllowedAtMs_ensures world.session operation nowMs
  apply h.of_kept
  unfold Ensures at hspec
  split at hspec
  next hrun =>
    rw [hrun, hspec]
    exact WriteSession.Kept.refl _
  next hrun =>
    rw [hrun]
    rcases hspec with hsame | hmarked
    · rw [hsame]
      exact WriteSession.Kept.refl _
    · rw [hmarked]
      exact WriteSession.Kept.mark _ (by decide)

theorem Sound.openTarget {target : LocatedBlock}
    (hstate : world.session.state = .opened)
    (hcontinues : world.session.Continues first target)
    (hbelow : world.Below target.blockId target.writeOffset)
    (hshows : world.Shows kept target.fileOffset target.blockId target.writeOffset) :
    Sound kept first { world with writing := ⟨world.session, some target⟩, frames := [] } :=
  { h with
    writing := ⟨h.writing.laidFrom, fun other hother => by
      cases hother
      exact hcontinues⟩
    stream := h.stream_dropped
    target := fun other hother => by
      cases hother
      exact ⟨hbelow, hshows⟩
    sync := fun plan hplan => absurd hstate (h.sync plan hplan).2.1
    commit := fun plan hplan => by
      have hclosed := (h.commit plan hplan).2.1
      rw [hstate] at hclosed
      exact absurd mem_cons_self hclosed
    published := fun hack => absurd hstate (h.published hack).2.2.2.2 }

end

variable {allocated : LocatedBlock} {group : GroupName}

theorem Sound.nextTarget (h : world.Sound kept first) {nowMs : ℕ}
    (henabled : world.Enabled (.openBlock group allocated nowMs))
    (haccepts : world.session.AcceptsTarget (world.session.nextTarget group allocated).2) :
    world.session.Continues first (world.session.nextTarget group allocated).2 ∧
      world.Below (world.session.nextTarget group allocated).2.blockId
        (world.session.nextTarget group allocated).2.writeOffset ∧
      world.Shows kept (world.session.nextTarget group allocated).2.fileOffset
        (world.session.nextTarget group allocated).2.blockId
        (world.session.nextTarget group allocated).2.writeOffset := by
  have hlaid : world.session.LaidFrom first := h.writing.laidFrom
  obtain ⟨_, haligned, hfresh⟩ := henabled
  unfold WriteSession.nextTarget at haccepts ⊢
  cases htail : world.session.reusableTail with
  | none =>
    rw [htail] at haccepts
    simp only [Option.getD_none] at haccepts ⊢
    obtain ⟨hfile, hready⟩ := hfresh htail
    have hlast : ∀ last ∈ world.session.readyBlocks.getLast?,
        last.target.blockId ≠ allocated.blockId :=
      fun last hlast => hready last (mem_of_getLast? hlast)
    have hcontinues := hlaid.continues_allocated htail (haligned htail) hlast haccepts
    refine ⟨hcontinues, ⟨fun _ ordinal hblock => ?_, fun other hother hid => ?_⟩, ?_⟩
    · exact absurd (mem_of_getElem? hblock) hfile
    · exact absurd hid (hready other hother)
    · have hzero : allocated.writeOffset = 0 := by
        obtain ⟨_, hflush⟩ := hlaid.full_of_reusableTail htail
        have hwrite := haccepts.writeOffset_lt
        rw [haccepts.blockSize_eq] at hwrite
        have hmod : (allocated.fileOffset + allocated.writeOffset) %
            world.session.layout.blockSize = 0 := by
          rw [haccepts.offset_eq, hflush, Nat.mul_mod_left]
        rwa [Nat.add_mod, haligned htail, Nat.zero_add, Nat.mod_mod,
          Nat.mod_eq_of_lt hwrite] at hmod
      have hoffset := haccepts.offset_eq
      have hflushed : world.session.flushCursor ≤ world.session.cursor := hlaid.flushed
      have hcounted := h.counted
      rw [hzero]
      exact ⟨Nat.zero_le _, by omega, by simp⟩
  | some =>
    rw [htail] at haccepts
    simp only [Option.getD_some] at haccepts ⊢
    have hcontinues := hlaid.continues_tail htail
    obtain ⟨last, hlast, htarget⟩ := reusableTail_eq htail
    have hshows := h.ready last (mem_of_getLast? hlast)
    have hbelow := h.tail last hlast
    rw [htarget] at hcontinues ⊢
    exact ⟨hcontinues, hbelow, hshows⟩

theorem Sound.openBlock (h : world.Sound kept first) {nowMs : ℕ}
    (henabled : world.Enabled (.openBlock group allocated nowMs)) :
    (world.after (.openBlock group allocated nowMs)).Sound kept first := by
  have hspec := openBlockWrite_ensures world.session group allocated nowMs
  have hnone : world.writing.opened = none := henabled.1
  show Sound kept first { world with
    writing := world.writing.after (.openBlock group allocated nowMs)
    frames := [] }
  rcases hrun : openBlockWrite group allocated nowMs world.session with
    ⟨error | target, session⟩
  · rw [after_openBlock_error hrun]
    have hnew := (h.of_kept (hspec.of_error hrun)).dropBlock
    exact hnew
  · rw [after_openBlock_ok hrun]
    obtain ⟨htarget, haccepts, hkept, hstate⟩ := hspec.of_ok hrun
    rw [htarget] at haccepts
    obtain ⟨hcontinues, hbelow, hshows⟩ := h.nextTarget henabled haccepts
    rw [← htarget] at hcontinues hbelow hshows
    have hnew := h.of_kept hkept
    exact hnew.openTarget hstate (hcontinues.sameBytes hkept.toSameBytes)
      (hbelow.of_kept hkept) hshows

theorem Sound.writeFrame (h : world.Sound kept first) {frame : List UInt8}
    (henabled : world.Enabled (.writeFrame frame)) :
    (world.after (.writeFrame frame)).Sound kept first := by
  obtain ⟨target, hopened, _, hcursor⟩ := henabled
  have hflushed : world.session.flushCursor ≤ world.session.cursor := h.writing.laidFrom.flushed
  have hcounted := h.counted
  have hafter : world.writing.after (.acceptFrame frame.length) =
      ⟨{ world.session with cursor := world.session.cursor + frame.length },
        world.writing.opened⟩ := by
    show world.writing.run (advanceCursor frame.length) = _
    unfold run advanceCursor
    rw [current_bind, checkedAddU64_of_lt hcursor]
    rfl
  have hwriting := h.writing.acceptFrame frame.length
  show Sound kept first { world with
    writing := world.writing.after (.acceptFrame frame.length)
    frames := world.frames ++ frame
    accepted := world.accepted ++ frame }
  rw [hafter] at hwriting ⊢
  have happend : kept ++ (world.accepted ++ frame) = kept ++ world.accepted ++ frame :=
    (append_assoc _ _ _).symm
  exact
    { h with
      writing := hwriting
      counted := by
        show (kept ++ (world.accepted ++ frame)).length = world.session.cursor + frame.length
        rw [happend, length_append, hcounted]
      ready := by
        intro block hblock
        show ShowsIn (kept ++ (world.accepted ++ frame)) _ _ _ _ _
        rw [happend]
        exact (h.ready block hblock).accept frame
      visible := by
        intro hcontinued ordinal block hblock
        show ShowsIn (kept ++ (world.accepted ++ frame)) _ _ _ _ _
        rw [happend]
        exact (h.visible hcontinued ordinal block hblock).accept frame
      stream := by
        show (kept ++ (world.accepted ++ frame)).drop world.session.flushCursor =
            world.frames ++ frame ∨
          world.session.flushCursor + (world.frames ++ frame).length <
            world.session.cursor + frame.length
        rw [happend, length_append]
        rcases h.stream with hclean | hlost
        · left
          rw [drop_append_of_le_length (by omega), hclean]
        · right
          omega
      target := by
        intro other hother
        obtain ⟨hbelow, hshows⟩ := h.target other hother
        refine ⟨hbelow, ?_⟩
        show ShowsIn (kept ++ (world.accepted ++ frame)) _ _ _ _ _
        rw [happend]
        exact hshows.accept frame
      sync := by
        intro plan hplan
        have hnone := (h.sync plan hplan).1
        rw [hopened] at hnone
        cases hnone
      commit := by
        intro plan hplan
        have hnone := (h.commit plan hplan).1
        rw [hopened] at hnone
        cases hnone
      published := by
        intro hack
        have hnone := (h.published hack).2.2.2.1
        rw [hopened] at hnone
        cases hnone }

/-! ## Steps of the Workers -/

theorem Sound.workerChanges (h : world.Sound kept first) {block : BlockId} {bytes : List UInt8}
    (henabled : world.Enabled (.workerChanges block bytes)) :
    (world.after (.workerChanges block bytes)).Sound kept first := by
  obtain ⟨hlong, hsame⟩ := henabled
  have hshows : ∀ {offset other len}, world.Shows kept offset other len →
      ShowsIn (kept ++ world.accepted) (Function.update world.workers block bytes)
        world.promised offset other len := by
    intro offset other len hold
    apply hold.change hold.promised
    by_cases hother : other = block
    · rw [hother, Function.update_self]
      have htake := congrArg (take len) hsame
      rwa [take_take, take_take, min_eq_left (hother ▸ hold.promised)] at htake
    · rw [Function.update_of_ne hother]
  exact
    { h with
      held := by
        intro other
        show world.promised other ≤ (Function.update world.workers block bytes other).length
        by_cases hother : other = block
        · rw [hother, Function.update_self]
          exact hlong
        · rw [Function.update_of_ne hother]
          exact h.held other
      ready := fun other hother => hshows (h.ready other hother)
      visible := fun hcontinued ordinal other hother =>
        hshows (h.visible hcontinued ordinal other hother)
      target := fun other hother => ⟨(h.target other hother).1, hshows (h.target other hother).2⟩
      published := h.published }

def checkpointed (world : WriterWorld) (target : LocatedBlock) : WriterWorld :=
  { world with
    workers := Function.update world.workers target.blockId
      ((world.workers target.blockId).take target.writeOffset ++ world.frames)
    promised := Function.update world.promised target.blockId (world.writtenLen target) }

section Checkpointed

variable (world) (target : LocatedBlock)

theorem checkpointed_workers : (world.checkpointed target).workers target.blockId =
    (world.workers target.blockId).take target.writeOffset ++ world.frames :=
  Function.update_self ..

theorem checkpointed_promised :
    (world.checkpointed target).promised target.blockId = world.writtenLen target :=
  Function.update_self ..

variable {target} {block : BlockId}

theorem checkpointed_workers_of_ne (h : block ≠ target.blockId) :
    (world.checkpointed target).workers block = world.workers block :=
  Function.update_of_ne h ..

theorem checkpointed_promised_of_ne (h : block ≠ target.blockId) :
    (world.checkpointed target).promised block = world.promised block :=
  Function.update_of_ne h ..

end Checkpointed

variable {target : LocatedBlock} {session : WriteSession}

section

variable (h : world.Sound kept first)
include h

theorem Sound.checkpointed (hopened : world.writing.opened = some target)
    (hlong : target.writeOffset ≤ (world.workers target.blockId).length) :
    (world.checkpointed target).Sound kept first := by
  obtain ⟨hbelow, htarget⟩ := h.target target hopened
  have hshows : ∀ {offset other len}, world.Shows kept offset other len →
      (other = target.blockId → len ≤ target.writeOffset) →
      (world.checkpointed target).Shows kept offset other len := by
    intro offset other len hold hle
    by_cases hother : other = target.blockId
    · have hlen := hle hother
      apply hold.change
      · rw [hother, checkpointed_promised]
        exact hlen.trans (Nat.le_add_right _ _)
      · rw [hother, checkpointed_workers,
          take_append_of_le_length (by rw [length_take]; omega), take_take,
          min_eq_left hlen]
    · apply hold.change
      · rw [checkpointed_promised_of_ne world hother]
        exact hold.promised
      · rw [checkpointed_workers_of_ne world hother]
  exact
    { h with
      held := by
        intro other
        by_cases hother : other = target.blockId
        · rw [hother, checkpointed_promised, checkpointed_workers, length_append,
            length_take, min_eq_left hlong]
          exact le_rfl
        · rw [checkpointed_promised_of_ne world hother, checkpointed_workers_of_ne world hother]
          exact h.held other
      ready := fun other hother => hshows (h.ready other hother) (hbelow.2 other hother)
      visible := fun hcontinued ordinal other hother =>
        hshows (h.visible hcontinued ordinal other hother)
          fun hid => hbelow.1 hcontinued ordinal (hid ▸ hother)
      target := by
        intro other hother
        have hsame : other = target := Option.some.inj (hother.symm.trans hopened)
        rw [hsame]
        exact ⟨hbelow, hshows htarget fun _ => le_rfl⟩
      published := h.published }

theorem Sound.shows_frames (hopened : world.writing.opened = some target)
    (hoffset : target.fileOffset + target.writeOffset = world.session.flushCursor)
    (hend : target.fileOffset + world.writtenLen target = world.session.cursor) :
    (world.checkpointed target).Shows kept target.fileOffset target.blockId
      (world.writtenLen target) := by
  have hcounted := h.counted
  have hshows := (h.target target hopened).2
  have hclean : (kept ++ world.accepted).drop world.session.flushCursor = world.frames := by
    rcases h.stream with hclean | hlost
    · exact hclean
    · unfold writtenLen at hend
      omega
  have hbytes : (world.workers target.blockId).take target.writeOffset ++ world.frames =
      (kept ++ world.accepted).drop target.fileOffset := by
    rw [hshows.bytes, ← hclean, ← hoffset, ← drop_drop]
    exact take_append_drop _ _
  refine ⟨?_, ?_, ?_⟩
  · rw [checkpointed_promised]
  · show _ ≤ (kept ++ world.accepted).length
    rw [hend, hcounted]
  · rw [checkpointed_workers, hbytes]
    rfl

theorem Sound.push {writtenLen : ℕ}
    (hopened : world.writing.opened = some target) (hbyte : 1 ≤ writtenLen)
    (hle : writtenLen ≤ target.blockSize) (hmore : target.writeOffset ≤ writtenLen)
    (hend : target.fileOffset + writtenLen = world.session.cursor)
    (hshows : world.Shows kept target.fileOffset target.blockId writtenLen) :
    Sound kept first { world with
      writing := ⟨{ world.session with
        readyBlocks := WriteSession.withCheckpoint world.session.readyBlocks target writtenLen
        flushCursor := world.session.cursor }, none⟩
      frames := [] } := by
  have hlaid : world.session.LaidFrom first := h.writing.laidFrom
  have hbelow := (h.target target hopened).1
  have hmem : ∀ other ∈ withCheckpoint world.session.readyBlocks target writtenLen,
      other ∈ world.session.readyBlocks ∨ other = ⟨target, writtenLen⟩ := by
    intro other hother
    unfold withCheckpoint at hother
    rcases mem_append.1 hother with hold | hnew
    · left
      split at hold
      · exact mem_of_mem_dropLast hold
      · exact hold
    · exact .inr (mem_singleton.1 hnew)
  exact
    { h with
      writing := ⟨hlaid.checkpoint (h.writing.continues target hopened) hbyte hle hend,
        fun other hnone => by cases hnone⟩
      based := fun hmode => (hlaid.appends hmode).2
      ready := by
        intro other hother
        rcases hmem other hother with hold | rfl
        · exact h.ready other hold
        · exact hshows
      stream := by
        left
        show (kept ++ world.accepted).drop world.session.cursor = []
        rw [← h.counted, drop_length]
      tail := by
        intro last hlast
        have hlast' : last = ⟨target, writtenLen⟩ := by
          have hconcat : (withCheckpoint world.session.readyBlocks target
              writtenLen).getLast? = some ⟨target, writtenLen⟩ := by
            unfold withCheckpoint
            exact getLast?_concat
          exact Option.some.inj (hlast.symm.trans hconcat)
        rw [hlast']
        refine ⟨fun hcontinued ordinal hblock => ?_, fun other hother hid => ?_⟩
        · exact (hbelow.1 hcontinued ordinal hblock).trans hmore
        · rcases hmem other hother with hold | rfl
          · exact (hbelow.2 other hold hid).trans hmore
          · exact le_rfl
      target := fun other hnone => by cases hnone
      sync := by
        intro plan hplan
        have hnone := (h.sync plan hplan).1
        rw [hopened] at hnone
        cases hnone
      commit := by
        intro plan hplan
        have hnone := (h.commit plan hplan).1
        rw [hopened] at hnone
        cases hnone
      published := by
        intro hack
        have hnone := (h.published hack).2.2.2.1
        rw [hopened] at hnone
        cases hnone }

theorem Sound.finishBlock (henabled : world.Enabled .finishBlock) :
    (world.after .finishBlock).Sound kept first := by
  obtain ⟨target, hopened, hbyte, hlong⟩ := henabled
  have hspec := finishBlockWrite_ensures world.session target (world.writtenLen target)
  have hchecked := h.checkpointed hopened hlong
  have hafter : world.after .finishBlock =
      { world.checkpointed target with
        writing := ⟨(finishBlockWrite target (world.writtenLen target) world.session).2, none⟩
        frames := [] } := by
    unfold after
    rw [hopened]
    simp only [Writing.after, hopened]
    rfl
  rw [hafter]
  unfold Ensures at hspec
  split at hspec
  next hrun =>
    obtain ⟨⟨hmore, hle, hoffset, hend⟩, hsession⟩ := hspec
    rw [hrun, hsession]
    exact hchecked.push hopened hbyte hle hmore hend (h.shows_frames hopened hoffset hend)
  next hrun =>
    rw [hrun, hspec]
    have hinvalid : WriteSession.Kept world.session (world.session.mark .sessionInvalid) :=
      WriteSession.Kept.mark _ (by decide)
    have hmarked := hchecked.of_kept hinvalid
    exact hmarked.dropBlock

end

/-! ## Barriers -/

theorem run_unit_snd {α : Type} (call : SessionM α) (session : WriteSession) :
    ((do let _ ← call : SessionM Unit) session).2 = (call session).2 := by
  rcases hrun : call session with ⟨error | value, session'⟩ <;> simp [bind, hrun, pure]

theorem Sound.freeze (h : world.Sound kept first) (hopened : world.writing.opened = none)
    (hsame : WriteSession.SameBytes world.session session)
    (hstate : world.session.state = .opened)
    (hsync : ∀ plan ∈ session.sync, world.session.sync = some plan ∨ (session.state = .syncPending
      ∧ plan.publication = world.session.publication))
    (hcommit : ∀ plan ∈ session.commit, world.session.commit = some plan ∨ (session.state =
      .commitStarted ∧ plan.publication = world.session.publication)) :
    Sound kept first { world with writing := ⟨session, world.writing.opened⟩ } := by
  have hwriting := h.writing.sameBytes hsame
  have hpublication := hsame.publication
  obtain ⟨path, inodeId, layout, generation, mode, writeHandle, baseSize, cursor, flushCursor,
    expiresAtMs, readyBlocks, writeGroup, state, sync, commit⟩ := session
  obtain ⟨rfl, rfl, rfl, rfl, rfl, rfl, rfl, rfl, rfl, _⟩ := hsame
  exact
    { h with
      writing := hwriting
      sync := by
        intro plan hplan
        rcases hsync plan hplan with hold | ⟨hpending, hplanned⟩
        · exact absurd hstate (h.sync plan hold).2.1
        · refine ⟨hopened, ?_, hplanned.trans hpublication.symm⟩
          intro heq
          have hpending : state = .syncPending := hpending
          have heq : state = .opened := heq
          rw [hpending] at heq
          cases heq
      commit := by
        intro plan hplan
        rcases hcommit plan hplan with hold | ⟨hstarted, hplanned⟩
        · have hclosed := (h.commit plan hold).2.1
          rw [hstate] at hclosed
          exact absurd mem_cons_self hclosed
        · refine ⟨hopened, ?_, hplanned.trans hpublication.symm⟩
          have hstarted : state = .commitStarted := hstarted
          show state ∉ [WriteSessionState.opened, .syncPending]
          rw [hstarted]
          decide
      published := fun hack => absurd hstate (h.published hack).2.2.2.2 }

variable {callId : CallId}

/-- An accepted publication keeps the blocks before its start, whether or not it changes the
file. -/
theorem prepared_parts {publication : FilePublication} {nextIndex : ℕ}
    (h : world.prepared publication nextIndex = .ok file) :
    ∃ start, publication.startIndex { world.file with nextIndex := nextIndex } = .ok start ∧
      start ≤ world.file.blocks.length ∧
      file.blocks = world.file.blocks.take start ++
        publication.blocks.map CommittedBlock.blockId ∧
      file.len = publication.targetSize ∧ file.layout = world.file.layout ∧
      (publication.mode = .appendIfUnchanged →
        world.file.len = publication.expectedFileSize ∨
          world.file.len = publication.targetSize) := by
  obtain ⟨prepared, hprepared, hfile⟩ : ∃ prepared, prepareFilePublication
      (world.inode nextIndex) publication 0 = .ok prepared ∧ prepared.inode.file = .ok file := by
    unfold WriterWorld.prepared at h
    cases hprepared : prepareFilePublication (world.inode nextIndex) publication 0 with
    | error =>
      rw [hprepared] at h
      cases h
    | ok prepared =>
      rw [hprepared] at h
      exact ⟨prepared, rfl, h⟩
  cases prepareFilePublication_ok hprepared with
  | visible hkind _ hvisible =>
    cases hkind
    cases hfile
    have hlen := matchesVisible_len hvisible
    unfold matchesVisible at hvisible
    split at hvisible
    · cases hvisible
    next start hstart =>
      have hsuffix := Except.ok.inj hvisible
      simp only [suffixVisible, Bool.and_eq_true, decide_eq_true_eq] at hsuffix
      refine ⟨start, hstart, hsuffix.1.2, ?_, hlen, rfl, fun _ => .inr hlen⟩
      rw [← hsuffix.2, take_append_drop]
  | replaced hkind _ hmerged =>
    cases hkind
    cases hfile
    obtain ⟨start, hstart, hkept, hblocks, hbase⟩ := mergedBlocks_parts hmerged
    exact ⟨start, hstart, hkept, hblocks, rfl, rfl, fun hmode => .inl (hbase hmode)⟩

section

variable (h : world.Sound kept first)
include h

theorem Sound.startSync (henabled : world.Enabled (.startSync callId)) :
    (world.after (.startSync callId)).Sound kept first := by
  show Sound kept first { world with writing := world.writing.run _ }
  unfold run
  rw [run_unit_snd]
  rcases world.session.startSync_snd callId with hsame | ⟨hstate, hfrozen⟩
  · rw [hsame]
    exact h
  · have hbytes : WriteSession.SameBytes world.session
        { world.session with
          sync := some (world.session.syncPlan callId), state := .syncPending } :=
      ⟨rfl, rfl, rfl, rfl, rfl, rfl, rfl, rfl, rfl, id⟩
    rw [hfrozen]
    apply h.freeze henabled hbytes hstate
    · intro plan hplan
      cases hplan
      exact .inr ⟨rfl, rfl⟩
    · intro plan hplan
      exact .inl hplan

theorem Sound.startClose (henabled : world.Enabled (.startClose callId)) :
    (world.after (.startClose callId)).Sound kept first := by
  show Sound kept first { world with writing := world.writing.run _ }
  unfold run
  rw [run_unit_snd]
  rcases world.session.startClose_snd callId with hsame | ⟨hstate, hfrozen⟩
  · rw [hsame]
    exact h
  · have hbytes : WriteSession.SameBytes world.session
        { world.session with
          commit := some (world.session.commitPlan callId), state := .commitStarted } :=
      ⟨rfl, rfl, rfl, rfl, rfl, rfl, rfl, rfl, rfl, id⟩
    rw [hfrozen]
    apply h.freeze henabled hbytes hstate
    · intro plan hplan
      exact .inl hplan
    · intro plan hplan
      cases hplan
      exact .inr ⟨rfl, rfl⟩

/-- The block at an ordinal of the merged file: kept from the old one with all its bytes, or
one of the ready blocks. -/
theorem Sound.merged_block {nextIndex start : ℕ} (hstart : world.session.publication.startIndex
      { world.file with nextIndex := nextIndex } = .ok start)
    (hbase : world.session.publication.mode = .appendIfUnchanged →
      world.file.len = world.session.baseSize ∨ world.file.len = world.session.cursor)
    (hkept : start ≤ world.file.blocks.length) {block : BlockId}
    (hblock : (world.file.blocks.take start ++
      world.session.publication.blocks.map CommittedBlock.blockId)[ordinal]? = some block) :
    (world.Continued ∧ world.file.blocks[ordinal]? = some block ∧
      world.visibleLen ordinal = FilePublication.visibleBlockLen world.session.cursor
        world.session.layout.blockSize ordinal) ∨
    ∃ ready ∈ world.session.readyBlocks, ready.target.blockId = block ∧
      ready.target.fileOffset = ordinal * world.session.layout.blockSize ∧
      ready.writtenLen = FilePublication.visibleBlockLen world.session.cursor
        world.session.layout.blockSize ordinal := by
  have hlaid : world.session.LaidFrom first := h.writing.laidFrom
  have hlayout : ({ world.file with nextIndex := nextIndex } : FileData).layout =
      world.session.layout := h.layout_eq
  obtain ⟨hflushed, hlimit⟩ := hlaid.flushed_of_startIndex h.based hlayout hstart
  obtain ⟨start', hpublishes⟩ := hlaid.publishes hflushed hlimit hlayout
  have hsame : start' = start := Except.ok.inj (hpublishes.accepted.symm.trans hstart)
  rw [hsame] at hpublishes
  have hlength : (world.file.blocks.take start).length = start := length_take_of_le hkept
  by_cases hold : ordinal < start
  · left
    rw [getElem?_append_left (by omega), getElem?_take_of_lt hold] at hblock
    obtain ⟨_, _, htail, _⟩ := startIndex_parts hstart
    cases hmode : world.session.mode with
    | overwrite =>
      simp only [tailIndex, publication, publishMode, hmode] at htail
      have hzero := Except.ok.inj htail
      omega
    | append =>
      refine ⟨.inl hmode, hblock, ?_⟩
      unfold visibleLen
      rcases hbase (by simp [publication, publishMode, hmode]) with hlen | hlen
      swap
      · rw [hlen]
      rw [hlen]
      have hmore := (hlaid.appends hmode).2
      rcases hmore.eq_or_lt with heq | hlt
      · rw [heq]
      · simp only [tailIndex, publication, publishMode, hmode] at htail
        rw [if_neg (by omega), if_neg (by omega), hlayout] at htail
        have hdiv := Except.ok.inj htail
        have hfull : (ordinal + 1) * world.session.layout.blockSize ≤ world.session.baseSize := by
          rw [← Nat.le_div_iff_mul_le hlaid.size_pos]
          omega
        rw [Nat.add_mul, Nat.one_mul] at hfull
        unfold visibleBlockLen
        omega
  · right
    rw [getElem?_append_right (by omega), hlength] at hblock
    obtain ⟨ready, hmem, hid, hoffset, hlen⟩ := hlaid.ready_of_published hflushed hpublishes hblock
    rw [Nat.add_sub_cancel' (not_lt.1 hold)] at hoffset hlen
    exact ⟨ready, hmem, hid, hoffset, hlen⟩

theorem Sound.publish {nextIndex : ℕ}
    (hopened : world.writing.opened = none) (hstate : world.session.state ≠ .opened)
    (hcan : world.CanPublish world.session.publication nextIndex) :
    (world.publish world.session.publication nextIndex).Sound kept first := by
  obtain ⟨hfresh, _, file, hfile⟩ := hcan
  have hlaid : world.session.LaidFrom first := h.writing.laidFrom
  obtain ⟨start, hstart, hkept, hblocks, hlen', hsame, hbase⟩ := prepared_parts hfile
  have hlayout : ({ world.file with nextIndex := nextIndex } : FileData).layout =
      world.session.layout := h.layout_eq
  obtain ⟨hflushed, hlimit⟩ := hlaid.flushed_of_startIndex h.based hlayout hstart
  have hcount := (startIndex_parts hstart).1
  have hcursor : file.len = world.session.cursor := hlen'
  unfold WriterWorld.publish
  rw [hfile]
  exact
    { h with
      layout_eq := hsame.trans h.layout_eq
      visible := by
        intro _ ordinal block hblock
        rw [hblocks] at hblock
        simp only [visibleLen, hcursor]
        rcases h.merged_block hstart hbase hkept hblock with
          ⟨hcontinued, hold, hlen⟩ | ⟨ready, hmem, hid, hoffset, hlen⟩
        · have hshows := h.visible hcontinued ordinal block hold
          rw [hlen] at hshows
          exact hshows
        · have hshows := h.ready ready hmem
          rw [hid, hoffset, hlen] at hshows
          exact hshows
      tail := by
        intro last hlast
        have hbelow := h.tail last hlast
        refine ⟨fun _ ordinal hblock => ?_, hbelow.2⟩
        rw [hblocks] at hblock
        simp only [visibleLen, hcursor]
        rcases h.merged_block hstart hbase hkept hblock with
          ⟨hcontinued, hold, hlen⟩ | ⟨ready, hmem, hid, _, hlen⟩
        · have hle := hbelow.1 hcontinued ordinal hold
          rw [hlen] at hle
          exact hle
        · have hle := hbelow.2 ready hmem hid
          rw [hlen] at hle
          exact hle
      target := by
        intro target htarget
        rw [hopened] at htarget
        cases htarget
      published := by
        intro _
        refine ⟨hcursor, hflushed, ?_, hopened, hstate⟩
        rw [hlayout] at hcount
        rw [hblocks, length_append, length_take_of_le hkept, length_map]
        exact hcount.symm }

theorem Sound.returnSync (henabled : world.Enabled .returnSync) :
    (world.after .returnSync).Sound kept first := by
  obtain ⟨hack, hstate⟩ := henabled
  obtain ⟨_, hflushed, _, hopened, _⟩ := h.published hack
  have hwriting := h.writing.completeSync world.file.generation
  have hafter : world.writing.after (.completeSync world.file.generation) =
      ⟨{ world.session with
        generation := world.file.generation
        baseSize := world.session.cursor
        mode := .append
        sync := none
        state := .opened }, world.writing.opened⟩ := by
    show world.writing.run (markSyncCompleted _ _) = _
    unfold run markSyncCompleted failIf
    rw [current_bind, if_neg (not_not.2 hstate)]
    rfl
  show Sound kept first { world with
    writing := world.writing.after (.completeSync world.file.generation)
    acknowledged := false }
  rw [hafter] at hwriting ⊢
  exact
    { h with
      writing := hwriting
      based := fun _ => hflushed.le
      visible := fun _ => h.visible (.inr hack)
      tail := fun last hlast =>
        ⟨fun _ => (h.tail last hlast).1 (.inr hack), (h.tail last hlast).2⟩
      target := by
        intro target htarget
        rw [hopened] at htarget
        cases htarget
      sync := fun plan hnone => by cases hnone
      commit := by
        intro plan hplan
        have hclosed := (h.commit plan hplan).2.1
        rw [hstate] at hclosed
        exact absurd (mem_cons_of_mem _ mem_cons_self) hclosed
      published := fun hnone => by cases hnone }

theorem Sound.returnClose : (world.after .returnClose).Sound kept first := by
  have hclosed : WriteSession.Kept world.session (world.session.mark .closed) :=
    WriteSession.Kept.mark _ (by decide)
  have hmarked := h.of_kept hclosed
  exact
    { hmarked with
      visible := fun hcontinued => hmarked.visible (hcontinued.imp id (fun hnone => by cases hnone))
      tail := fun last hlast =>
        ⟨fun hcontinued => (hmarked.tail last hlast).1
          (hcontinued.imp id (fun hnone => by cases hnone)), (hmarked.tail last hlast).2⟩
      target := fun target htarget =>
        ⟨⟨fun hcontinued => (hmarked.target target htarget).1.1
          (hcontinued.imp id (fun hnone => by cases hnone)), (hmarked.target target htarget).1.2⟩,
          (hmarked.target target htarget).2⟩
      published := fun hnone => by cases hnone }

theorem Sound.step {step : WriterStep}
    (henabled : world.Enabled step) : (world.after step).Sound kept first := by
  cases step with
  | guard operation nowMs => exact h.guard operation nowMs
  | openBlock => exact h.openBlock henabled
  | writeFrame => exact h.writeFrame henabled
  | finishBlock => exact h.finishBlock henabled
  | dropBlock => exact h.dropBlock
  | startSync => exact h.startSync henabled
  | publishSync =>
    obtain ⟨plan, hplan, hcan⟩ := henabled
    obtain ⟨hopened, hstate, hpublication⟩ := h.sync plan hplan
    rw [hpublication] at hcan
    simp only [after, hplan, hpublication]
    exact h.publish hopened hstate hcan
  | returnSync => exact h.returnSync henabled
  | startClose => exact h.startClose henabled
  | publishCommit =>
    obtain ⟨plan, hplan, hcan⟩ := henabled
    obtain ⟨hopened, hstate, hpublication⟩ := h.commit plan hplan
    rw [hpublication] at hcan
    simp only [after, hplan, hpublication]
    apply h.publish hopened _ hcan
    intro heq
    rw [heq] at hstate
    exact hstate mem_cons_self
  | returnClose => exact h.returnClose
  | renew expiresAtMs =>
    have hkept : WriteSession.Kept world.session
        { world.session with expiresAtMs := some expiresAtMs } :=
      ⟨⟨rfl, rfl, rfl, rfl, rfl, rfl, rfl, rfl, rfl, id⟩, rfl, rfl, .inl rfl⟩
    exact h.of_kept hkept
  | fail => exact h.of_kept (WriteSession.Kept.mark _ henabled)
  | workerChanges => exact h.workerChanges henabled

end

/-! ## The start -/

variable {answer : WriteSession.OpenWriteAnswer} {workers : BlockId → List UInt8}
    {promised : BlockId → ℕ}

theorem tail_of_opens
    (h : Opens answer session file workers promised kept) (hopened : session.OpenedBy answer)
    (htarget : target ∈ answer.tailBlock) : answer.mode = .append ∧
      target.fileOffset = file.len / file.layout.blockSize * file.layout.blockSize ∧
      target.writeOffset = FilePublication.visibleBlockLen file.len file.layout.blockSize
        (file.len / file.layout.blockSize) := by
  obtain ⟨hoffset, hsize, hwrite⟩ := hopened.tail_accepted target htarget
  have hmode := (hopened.tail_iff.1 (Option.isSome_of_mem htarget)).1
  have hplaced := h.tail_aligned target htarget
  rw [hopened.flush_eq, if_neg (by rw [hmode]; simp), h.baseSize_eq] at hoffset
  rw [hsize, h.layout_eq] at hwrite
  rw [h.layout_eq] at hplaced
  have hrest : target.writeOffset = file.len % file.layout.blockSize := by
    rw [← hoffset, Nat.add_mod, hplaced, Nat.zero_add, Nat.mod_mod, Nat.mod_eq_of_lt hwrite]
  have hdiv := Nat.div_add_mod' file.len file.layout.blockSize
  refine ⟨hmode, by omega, ?_⟩
  unfold visibleBlockLen
  omega

theorem sound_opened (h : Opens answer session file workers promised kept) :
    (opened session file workers promised).Sound kept answer.firstOrdinal := by
  obtain ⟨nowMs, hsession⟩ := h.session_eq
  have hopened := openedBy hsession
  have hlayout : session.layout = file.layout := hopened.layout_eq.trans h.layout_eq
  have hcounted : kept.length = session.flushCursor := by
    rw [hopened.flush_eq]
    cases hmode : answer.mode with
    | overwrite => rw [h.replaced hmode]; rfl
    | append =>
      rw [(h.appended hmode).1.length_eq, h.baseSize_eq]
      rfl
  have hkept : kept ++ ([] : List UInt8) = kept := List.append_nil kept
  have hvisible : answer.mode = .append → ∀ ordinal block, file.blocks[ordinal]? = some block →
      ShowsIn kept workers promised (ordinal * session.layout.blockSize) block
        (visibleBlockLen file.len session.layout.blockSize ordinal) := by
    intro hmode ordinal block hblock
    obtain ⟨hreads, hcovered⟩ := h.appended hmode
    rw [hlayout]
    refine ⟨hcovered ordinal block hblock, ?_, hreads.block_eq ordinal block hblock⟩
    have hlt := (List.getElem?_eq_some_iff.1 hblock).1
    rw [hreads.count_eq] at hlt
    have hsize : 0 < file.layout.blockSize := h.layout_eq ▸ hopened.size_pos
    obtain ⟨count, hcount⟩ : ∃ count, FileData.requiredBlocks file.len file.layout.blockSize =
        count + 1 := ⟨_, (Nat.succ_pred_eq_of_pos (Nat.zero_lt_of_lt hlt)).symm⟩
    have hlow := lt_of_requiredBlocks hcount
    have hmul : ordinal * file.layout.blockSize ≤ count * file.layout.blockSize :=
      Nat.mul_le_mul_right _ (by omega)
    rw [hreads.length_eq]
    unfold visibleBlockLen
    omega
  have hmode : (opened session file workers promised).Continued → answer.mode = .append := by
    intro hcontinued
    rcases hcontinued with hmode | hack
    · exact hopened.mode_eq ▸ hmode
    · cases hack
  have hready : ∀ block ∈ session.readyBlocks, ∃ target ∈ answer.tailBlock,
      block = ⟨target, target.writeOffset⟩ := by
    intro block hblock
    rw [hopened.blocks_eq] at hblock
    obtain ⟨target, htarget, hsame⟩ := Option.map_eq_some_iff.1 (Option.mem_toList.1 hblock)
    exact ⟨target, htarget, hsame.symm⟩
  exact
    { writing := sound_start hopened h.tail_aligned
      based := by
        intro hmode
        have hmode : answer.mode = .append := hopened.mode_eq ▸ hmode
        show session.baseSize ≤ session.flushCursor
        rw [hopened.baseSize_eq, hopened.flush_eq, hmode]
        exact le_rfl
      counted := by
        show (kept ++ []).length = session.cursor
        rw [hkept, hcounted, hopened.cursor_eq]
      held := h.held
      layout_eq := hlayout.symm
      ready := by
        intro block hblock
        obtain ⟨target, htarget, hsame⟩ := hready block hblock
        obtain ⟨happend, hoffset, hwrite⟩ := tail_of_opens h hopened htarget
        show ShowsIn (kept ++ []) workers promised _ _ _
        rw [hkept, hsame]
        have hshows := hvisible happend _ _ (h.tail_eq target htarget)
        rw [hlayout, ← hoffset, ← hwrite] at hshows
        exact hshows
      visible := by
        intro hcontinued ordinal block hblock
        show ShowsIn (kept ++ []) workers promised _ _ _
        rw [hkept]
        exact hvisible (hmode hcontinued) ordinal block hblock
      stream := by
        left
        show (kept ++ []).drop session.flushCursor = []
        rw [hkept, ← hcounted, List.drop_length]
      tail := by
        intro last hlast
        obtain ⟨target, htarget, hsame⟩ := hready last (List.mem_of_getLast? hlast)
        obtain ⟨_, hoffset, hwrite⟩ := tail_of_opens h hopened htarget
        rw [hsame]
        refine ⟨fun _ ordinal hblock => ?_, fun other hother _ => ?_⟩
        · have hordinal : ordinal = file.len / file.layout.blockSize := by
            have hlt := (List.getElem?_eq_some_iff.1 hblock).1
            apply (List.getElem?_inj hlt h.blocks_nodup).1
            exact hblock.trans (h.tail_eq target htarget).symm
          show visibleBlockLen file.len session.layout.blockSize ordinal ≤ _
          rw [hordinal, hlayout, ← hwrite]
        · obtain ⟨tail, htail, hother⟩ := hready other hother
          have heq : tail = target := Option.some.inj (htail.symm.trans htarget)
          rw [hother, heq]
      target := fun target hnone => by cases hnone
      sync := by
        intro plan hplan
        have hnone : session.sync = some plan := hplan
        rw [hopened.sync_eq] at hnone
        cases hnone
      commit := by
        intro plan hplan
        have hnone : session.commit = some plan := hplan
        rw [hopened.commit_eq] at hnone
        cases hnone
      published := fun hnone => by cases hnone }

end WriterWorld

/-! ## What a successful sync or close has published -/

/-- The file is as long as the cursor says and reads as the bytes handed over. -/
structure WriterWorld.Published (kept : List UInt8) (world : WriterWorld) : Prop where
  len_eq : world.file.len = world.session.cursor
  reads : ReadsAs world.file world.workers (kept ++ world.accepted)
  covered : Covered world.file world.promised

theorem successful_barriers_publish {answer : WriteSession.OpenWriteAnswer}
    {session : WriteSession} {file : FileData} {workers : BlockId → List UInt8}
    {promised : BlockId → ℕ} {kept : List UInt8}
    {past : List (History.Transition WriterWorld WriterStep)} {world : WriterWorld}
    (hopens : Opens answer session file workers promised kept)
    (hrun : WriterRun (.opened session file workers promised) past world)
    (hreturns : world.Enabled .returnSync ∨ world.Enabled .returnClose) : world.Published kept := by
  have hsound : world.Sound kept answer.firstOrdinal := by
    apply hrun.invariant (WriterWorld.sound_opened hopens)
    intro past world step world' _ hsound _ hstep
    rw [hstep.2]
    exact hsound.step hstep.1
  have hack : world.acknowledged = true := by
    rcases hreturns with hsync | hclose
    · exact hsync.1
    · exact hclose.1
  obtain ⟨hlen, _, hcount, _, _⟩ := hsound.published hack
  have hvisible := hsound.visible (.inr hack)
  rw [← hsound.layout_eq] at hcount
  refine ⟨hlen, ⟨?_, ?_, ?_⟩, ?_⟩
  · rw [hsound.counted, hlen]
  · rw [hcount, hlen]
  · intro ordinal block hblock
    have hbytes := (hvisible ordinal block hblock).bytes
    unfold WriterWorld.visibleLen at hbytes
    rw [← hsound.layout_eq] at hbytes
    exact hbytes
  · intro ordinal block hblock
    have hpromised := (hvisible ordinal block hblock).promised
    rw [WriterWorld.visibleLen, ← hsound.layout_eq] at hpromised
    exact hpromised

theorem WriterRun.take {start world : WriterWorld}
    {past : List (History.Transition WriterWorld WriterStep)} (hrun : WriterRun start past world)
    (step : WriterStep) (henabled : world.Enabled step) :
    WriterRun start (⟨world, step, world.after step⟩ :: past) (world.after step) :=
  .next hrun trivial ⟨henabled, rfl⟩

/-- A stream is dropped before its first frame and opened again; its three bytes are synced. -/
theorem successful_barriers_publish_reopened :
    ∃ past world, WriterRun
      (.opened sampleReplacement sampleFile (fun _ => []) (fun _ => 0)) past world ∧
      world.accepted = [1, 2, 3] ∧ world.file.len = 3 ∧ world.Published [] := by
  have hopens : Opens (sampleOpen .overwrite 0) sampleReplacement sampleFile (fun _ => [])
      (fun _ => 0) [] :=
    { session_eq := ⟨0, rfl⟩
      layout_eq := rfl
      baseSize_eq := rfl
      blocks_nodup := by decide
      tail_aligned := by decide
      tail_eq := fun tail hnone => by cases hnone
      held := fun _ => le_rfl
      replaced := fun _ => rfl
      appended := fun hmode => by cases hmode }
  have hstart : WriterRun
      (.opened sampleReplacement sampleFile (fun _ => []) (fun _ => 0)) [] _ := .start
  have htarget : ∀ {world : WriterWorld}, world.writing.opened = none →
      world.session.readyBlocks = [] → world.file.blocks = [] →
      world.Enabled (.openBlock sampleGroup (sampleTarget 0 0 0) 0) := by
    intro world hopened hready hfile
    refine ⟨hopened, fun _ => Nat.zero_mod _, fun _ => ⟨?_, ?_⟩⟩
    · rw [hfile]
      exact not_mem_nil
    · rw [hready]
      exact fun block hnone => by cases hnone
  have hopened := hstart.take (.openBlock sampleGroup (sampleTarget 0 0 0) 0) (htarget rfl rfl rfl)
  have hdropped := hopened.take .dropBlock trivial
  have hreopened := hdropped.take (.openBlock sampleGroup (sampleTarget 0 0 0) 0)
    (htarget rfl rfl rfl)
  have hframe := hreopened.take (.writeFrame [1, 2, 3])
    ⟨sampleTarget 0 0 0, rfl, by decide, by decide⟩
  have hfinished := hframe.take .finishBlock ⟨sampleTarget 0 0 0, rfl, by decide, Nat.zero_le _⟩
  have hfrozen := hfinished.take (.startSync 5) rfl
  have hpublished := hfrozen.take (.publishSync 2) ⟨_, rfl, rfl, rfl, _, rfl⟩
  exact ⟨_, _, hpublished, rfl, rfl, successful_barriers_publish hopens hpublished (.inl ⟨rfl,
    rfl⟩)⟩

end Beryl.Client
