import Beryl.ClientSession
import Beryl.History
import Beryl.Publication

/-!
# Where the blocks of a session lie

The client decides by byte ends which of its blocks a barrier has to publish; Metadata counts
ordinals by division.  As long as Metadata places its targets at multiples of the block size,
the ready blocks of a session lie at consecutive ordinals, all of them full but the last, and
the two ways of counting agree.
-/

namespace Beryl.Client

open Transaction FilePublication Beryl.Client.WriteSession ReadyBlock List

/-! ## Runs of one session -/

/-- A session with the target of the Worker stream that is open for it. -/
structure Writing where
  session : WriteSession
  opened : Option LocatedBlock

/-- The steps of a session, in the order in which `ClientInner` and `FileWriter` take them. -/
inductive SessionStep
  | guard (operation : WriteSessionOperation) (nowMs : ℕ)
  | openBlock (group : GroupName) (allocated : LocatedBlock) (nowMs : ℕ)
  | acceptFrame (len : ℕ)
  | finishBlock (writtenLen : ℕ)
  | dropBlock
  | startSync (callId : CallId)
  | completeSync (generation : ContentGeneration)
  | startClose (callId : CallId)
  | renew (expiresAtMs : ℕ)
  | fail (state : WriteSessionState)

namespace Writing

/-- When a step can be taken: one stream at a time, barriers only without one, and a checkpoint
of at least one byte.  A failure never opens a session again. -/
def Enabled (writing : Writing) : SessionStep → Prop
  | .guard _ _ => True
  | .openBlock _ _ _ => writing.opened = none
  | .acceptFrame _ => writing.opened.isSome
  | .finishBlock writtenLen => writing.opened.isSome ∧ 1 ≤ writtenLen
  | .dropBlock => True
  | .startSync _ => writing.opened = none
  | .completeSync _ => writing.opened = none
  | .startClose _ => writing.opened = none
  | .renew _ => True
  | .fail state => state ∉ [.opened, .syncPending, .commitStarted]

instance (writing : Writing) : DecidablePred writing.Enabled
  | .guard _ _ | .dropBlock | .renew _ => inferInstanceAs (Decidable True)
  | .openBlock _ _ _ | .startSync _ | .completeSync _ | .startClose _ =>
    inferInstanceAs (Decidable (writing.opened = none))
  | .acceptFrame _ => inferInstanceAs (Decidable (writing.opened.isSome = true))
  | .finishBlock writtenLen =>
    inferInstanceAs (Decidable (writing.opened.isSome = true ∧ 1 ≤ writtenLen))
  | .fail state =>
    inferInstanceAs (Decidable (state ∉ [WriteSessionState.opened, .syncPending, .commitStarted]))

def run (writing : Writing) (call : SessionM Unit) : Writing :=
  { writing with session := (call writing.session).2 }

def after (writing : Writing) : SessionStep → Writing
  | .guard operation nowMs =>
    writing.run (WriteSession.ensureOperationAllowedAtMs operation nowMs)
  | .openBlock group allocated nowMs =>
    match WriteSession.openBlockWrite group allocated nowMs writing.session with
    | (.ok target, session) => ⟨session, some target⟩
    | (.error _, session) => ⟨session, none⟩
  | .acceptFrame len => writing.run (WriteSession.advanceCursor len)
  | .finishBlock writtenLen =>
    match writing.opened with
    | none => writing
    | some target =>
      ⟨(WriteSession.finishBlockWrite target writtenLen writing.session).2, none⟩
  | .dropBlock => { writing with opened := none }
  | .startSync callId => writing.run (do let _ ← WriteSession.startSync callId)
  -- the length that `sync` read before its request is still the cursor
  | .completeSync generation =>
    writing.run (WriteSession.markSyncCompleted generation writing.session.cursor)
  | .startClose callId => writing.run (do let _ ← WriteSession.startClose callId)
  | .renew expiresAtMs =>
    { writing with session := { writing.session with expiresAtMs := some expiresAtMs } }
  | .fail state => { writing with session := writing.session.mark state }

/-- A target that Metadata allocates lies at a multiple of the block size. -/
def Aligned (writing : Writing) : SessionStep → Prop
  | .openBlock _ allocated _ => writing.session.reusableTail = none →
      allocated.fileOffset % writing.session.layout.blockSize = 0
  | _ => True

instance (writing : Writing) : DecidablePred writing.Aligned
  | .openBlock _ allocated _ => inferInstanceAs (Decidable (writing.session.reusableTail = none →
      allocated.fileOffset % writing.session.layout.blockSize = 0))
  | .guard _ _ | .acceptFrame _ | .finishBlock _ | .dropBlock | .startSync _ | .completeSync _
  | .startClose _ | .renew _ | .fail _ => inferInstanceAs (Decidable True)

/-- A target that Metadata allocates is not the block the session already ends with. -/
def Fresh (writing : Writing) : SessionStep → Prop
  | .openBlock _ allocated _ => writing.session.reusableTail = none →
      ∀ last ∈ writing.session.readyBlocks.getLast?, last.target.blockId ≠ allocated.blockId
  | _ => True

instance (writing : Writing) : DecidablePred writing.Fresh
  | .openBlock _ allocated _ => inferInstanceAs (Decidable (writing.session.reusableTail = none →
      ∀ last ∈ writing.session.readyBlocks.getLast?, last.target.blockId ≠ allocated.blockId))
  | .guard _ _ | .acceptFrame _ | .finishBlock _ | .dropBlock | .startSync _ | .completeSync _
  | .startClose _ | .renew _ | .fail _ => inferInstanceAs (Decidable True)

def Placed (writing : Writing) (step : SessionStep) : Prop :=
  writing.Aligned step ∧ writing.Fresh step

instance (writing : Writing) : DecidablePred writing.Placed :=
  fun step => inferInstanceAs (Decidable (writing.Aligned step ∧ writing.Fresh step))

end Writing

abbrev Written (admits : Writing → SessionStep → Prop) (start : Writing) :=
  History.Run (fun writing step writing' => writing.Enabled step ∧ writing' = writing.after step)
    (fun _ => admits) start

def publishMode : WriteMode → PublishMode
  | .overwrite => .replaceIfUnchanged
  | .append => .appendIfUnchanged

def WriteSession.publication (session : WriteSession) : FilePublication where
  blocks := session.publicationBlocks
  targetSize := session.cursor
  expectedGeneration := session.generation
  expectedFileSize := session.baseSize
  leaseEpoch := session.writeHandle.leaseEpoch
  mode := publishMode session.mode

def WriteSession.ordinal (session : WriteSession) (block : ReadyBlock) : ℕ :=
  block.target.fileOffset / session.layout.blockSize

/-! ## Consecutive blocks -/

/-- The blocks lie at the ordinals from `ordinal` on and end at `flush`. -/
def Laid (size flush : ℕ) : ℕ → List ReadyBlock → Prop
  | ordinal, [] => flush ≤ ordinal * size
  | ordinal, block :: rest =>
    block.target.blockSize = size ∧ block.target.fileOffset = ordinal * size ∧
    ordinal * size < flush ∧
    block.writtenLen = FilePublication.visibleBlockLen flush size ordinal ∧
    Laid size flush (ordinal + 1) rest

/-- The blocks are full and lie at the ordinals from `ordinal` on. -/
def FullFrom (size : ℕ) : ℕ → List ReadyBlock → Prop
  | _, [] => True
  | ordinal, block :: rest =>
    block.target.blockSize = size ∧ block.target.fileOffset = ordinal * size ∧
    block.writtenLen = size ∧ FullFrom size (ordinal + 1) rest

section Blocks

variable {size flush ordinal : ℕ} {blocks : List ReadyBlock} {block : ReadyBlock}

theorem fullFrom_concat : FullFrom size ordinal (blocks ++ [block]) ↔
      FullFrom size ordinal blocks ∧ block.target.blockSize = size ∧
        block.target.fileOffset = (ordinal + blocks.length) * size ∧ block.writtenLen = size := by
  induction blocks generalizing ordinal with
  | nil => simp [FullFrom]
  | cons head rest ih =>
    simp only [cons_append, FullFrom, ih, length_cons]
    have hindex : ordinal + 1 + rest.length = ordinal + (rest.length + 1) := by omega
    rw [hindex]
    tauto

theorem laid_concat : Laid size flush ordinal (blocks ++ [block]) ↔
      FullFrom size ordinal blocks ∧ block.target.blockSize = size ∧
        block.target.fileOffset = (ordinal + blocks.length) * size ∧
        (ordinal + blocks.length) * size < flush ∧ flush ≤ (ordinal + blocks.length) * size + size ∧
        (ordinal + blocks.length) * size + block.writtenLen = flush := by
  induction blocks generalizing ordinal with
  | nil =>
    simp only [nil_append, Laid, FullFrom, length_nil, Nat.add_zero, visibleBlockLen, Nat.add_mul,
      Nat.one_mul, true_and]
    constructor
    · intro ⟨hsize, hoffset, hlt, hlen, hle⟩
      refine ⟨hsize, hoffset, hlt, hle, ?_⟩
      omega
    · intro ⟨hsize, hoffset, hlt, hle, hlen⟩
      refine ⟨hsize, hoffset, hlt, ?_, hle⟩
      omega
  | cons head rest ih =>
    have hindex : ordinal + 1 + rest.length = ordinal + (rest.length + 1) := by omega
    simp only [cons_append, Laid, FullFrom, ih, length_cons, hindex]
    have hfull : (ordinal + (rest.length + 1)) * size < flush →
        visibleBlockLen flush size ordinal = size := by
      intro hlt
      have hexpand : (ordinal + (rest.length + 1)) * size =
          ordinal * size + rest.length * size + size := by ring
      have hnonneg : 0 ≤ rest.length * size := Nat.zero_le _
      unfold visibleBlockLen
      omega
    constructor
    · intro ⟨hsize, hoffset, hlt, hlen, hrest⟩
      rw [hfull hrest.2.2.2.1] at hlen
      exact ⟨⟨hsize, hoffset, hlen, hrest.1⟩, hrest.2⟩
    · intro ⟨⟨hsize, hoffset, hlen, hrest⟩, hlast⟩
      refine ⟨hsize, hoffset, ?_, ?_, hrest, hlast⟩
      · have hexpand : (ordinal + (rest.length + 1)) * size =
            ordinal * size + rest.length * size + size := by ring
        have hlt := hlast.2.2.1
        omega
      · rw [hfull hlast.2.2.1]
        exact hlen

theorem Laid.end_eq {rest : List ReadyBlock} (h : Laid size flush ordinal (block :: rest)) :
    block.target.fileOffset + block.writtenLen = min flush ((ordinal + 1) * size) := by
  obtain ⟨_, hoffset, hlt, hlen, _⟩ := h
  unfold visibleBlockLen at hlen
  rw [hoffset, hlen, Nat.add_mul, Nat.one_mul]
  omega

theorem Laid.blockLensMatch (h : Laid size flush ordinal blocks) :
    FilePublication.blockLensMatch flush size ordinal (blocks.map committed) = true := by
  induction blocks generalizing ordinal with
  | nil => rfl
  | cons block rest ih =>
    obtain ⟨_, _, _, hlen, hrest⟩ := h
    simp only [map_cons, blockLensMatch, committed, hlen, decide_true, Bool.true_and]
    exact ih hrest

theorem requiredBlocks_of_mem {len index : ℕ} (hlow : index * size < len)
    (hhigh : len ≤ index * size + size) : FileData.requiredBlocks len size = index + 1 := by
  rw [FileData.requiredBlocks, if_neg (by omega)]
  have hdiv : (len - 1) / size = index := by
    apply Nat.div_eq_of_lt_le
    · omega
    · rw [Nat.add_mul, Nat.one_mul]
      omega
  rw [hdiv]

section

variable (h : Laid size flush ordinal blocks)
include h

theorem Laid.length_add (hsize : 0 < size) (hstart : ordinal * size ≤ flush) :
    ordinal + blocks.length = FileData.requiredBlocks flush size := by
  induction blocks generalizing ordinal with
  | nil =>
    have hflush : flush = ordinal * size := le_antisymm h hstart
    cases ordinal with
    | zero => simp [hflush, FileData.requiredBlocks]
    | succ before =>
      rw [Nat.add_mul, Nat.one_mul] at hflush
      rw [requiredBlocks_of_mem (show before * size < flush by omega) (by omega)]
      rfl
  | cons block rest ih =>
    obtain ⟨_, _, hlt, _, hrest⟩ := h
    by_cases hnext : (ordinal + 1) * size ≤ flush
    · have hcount := ih hrest hnext
      rw [length_cons]
      omega
    · have hlast : rest = [] := by
        cases rest with
        | nil => rfl
        | cons => exact absurd hrest.2.2.1.le hnext
      rw [Nat.add_mul, Nat.one_mul] at hnext
      rw [hlast, length_singleton, requiredBlocks_of_mem hlt (by omega)]

theorem Laid.flush_le : flush ≤ (ordinal + blocks.length) * size := by
  induction blocks generalizing ordinal with
  | nil => exact h
  | cons block rest ih =>
    have hrest := ih h.2.2.2.2
    rwa [length_cons, Nat.add_comm rest.length, ← Nat.add_assoc]

theorem Laid.ordinals (hsize : 0 < size) :
    blocks.map (fun block => block.target.fileOffset / size) = range' ordinal blocks.length := by
  induction blocks generalizing ordinal with
  | nil => rfl
  | cons block rest ih =>
    obtain ⟨_, hoffset, _, _, hrest⟩ := h
    rw [map_cons, length_cons, range'_succ, ih hrest, hoffset, Nat.mul_div_cancel _ hsize]

theorem Laid.mem (hblock : block ∈ blocks) :
    ∃ index, index * size < flush ∧ block.target.fileOffset = index * size ∧
      block.target.fileOffset + block.writtenLen = min flush ((index + 1) * size) := by
  induction blocks generalizing ordinal with
  | nil => cases hblock
  | cons head rest ih =>
    rcases mem_cons.1 hblock with rfl | hrest
    · exact ⟨ordinal, h.2.2.1, h.2.1, h.end_eq⟩
    · exact ih h.2.2.2.2 hrest

theorem Laid.beyond_iff {base : ℕ} (hsize : 0 < size)
    (hbase : base < flush) (hblock : block ∈ blocks) :
    block.target.fileOffset + block.writtenLen > base ↔
      base / size ≤ block.target.fileOffset / size := by
  obtain ⟨index, _, hoffset, hend⟩ := h.mem hblock
  rw [hend, hoffset, Nat.mul_div_cancel _ hsize, ← Nat.lt_add_one_iff, Nat.div_lt_iff_lt_mul hsize]
  omega

theorem Laid.filter_beyond {base : ℕ} (hsize : 0 < size)
    (hbase : base < flush) (hstart : ordinal * size ≤ base) : Laid size flush (base / size)
      (blocks.filter fun block => base / size ≤ block.target.fileOffset / size) := by
  induction blocks generalizing ordinal with
  | nil =>
    have hend : flush ≤ ordinal * size := h
    omega
  | cons block rest ih =>
    have hoffset := h.2.1
    by_cases hnext : (ordinal + 1) * size ≤ base
    · have hbefore : ¬base / size ≤ block.target.fileOffset / size := by
        rw [hoffset, Nat.mul_div_cancel _ hsize, not_le, ← Nat.add_one_le_iff,
          Nat.le_div_iff_mul_le hsize]
        exact hnext
      rw [filter_cons_of_neg (by simpa using hbefore)]
      exact ih h.2.2.2.2 hnext
    · have hordinal : base / size = ordinal := by
        apply Nat.div_eq_of_lt_le hstart
        omega
      have hall : ∀ other ∈ block :: rest, base / size ≤ other.target.fileOffset / size := by
        intro other hother
        rcases mem_cons.1 hother with rfl | hrest
        · rw [hoffset, Nat.mul_div_cancel _ hsize, hordinal]
        · apply (h.2.2.2.2.beyond_iff hsize hbase hrest).1
          obtain ⟨index, hlt, hindex, hend⟩ := h.2.2.2.2.mem hrest
          have hrange := h.2.2.2.2.ordinals hsize
          have hmem : other.target.fileOffset / size ∈ range' (ordinal + 1) rest.length := by
            rw [← hrange]
            exact mem_map_of_mem hrest
          have hle := (mem_range'_1.1 hmem).1
          rw [hindex, Nat.mul_div_cancel _ hsize] at hle
          have hmul : (ordinal + 1) * size ≤ index * size := Nat.mul_le_mul_right size hle
          have hsucc : (index + 1) * size = index * size + size := by ring
          omega
      rw [filter_eq_self.2 (by simpa using hall), hordinal]
      exact h

end

end Blocks

/-! ## What a barrier publishes -/

def WriteSession.blocksFrom (session : WriteSession) (start : ℕ) : List ReadyBlock :=
  session.readyBlocks.filter fun block => start ≤ session.ordinal block

/-- Metadata accepts the payload of a barrier, which consists of the blocks at the ordinals
from `start` up to the last one. -/
structure WriteSession.PublishesFrom (session : WriteSession) (file : FileData)
    (start : ℕ) : Prop where
  accepted : session.publication.startIndex file = .ok start
  blocks_eq : session.publicationBlocks = (session.blocksFrom start).map ReadyBlock.committed
  ordinals_eq : (session.blocksFrom start).map session.ordinal = List.range' start
    (FileData.requiredBlocks session.cursor session.layout.blockSize - start)

/-- The ready blocks lie from the ordinal `first` on, and the cursors agree with them. -/
structure WriteSession.LaidFrom (session : WriteSession) (first : ℕ) : Prop where
  size_pos : 0 < session.layout.blockSize
  grouped : session.writeGroup.isSome
  laid : Laid session.layout.blockSize session.flushCursor first session.readyBlocks
  starts : first * session.layout.blockSize ≤ session.flushCursor
  flushed : session.flushCursor ≤ session.cursor
  replaces : session.mode = .overwrite → first = 0
  appends : session.mode = .append →
    first * session.layout.blockSize ≤ session.baseSize ∧ session.baseSize ≤ session.cursor

namespace WriteSession.LaidFrom

variable {session : WriteSession} {first : ℕ}

theorem filter_overwrite (hmode : session.mode = .overwrite) :
    session.readyBlocks.filter session.unpublished = session.readyBlocks := by
  apply filter_eq_self.2
  intro block _
  simp [unpublished, hmode]

theorem filter_append (h : session.LaidFrom first) (hmode : session.mode = .append)
    (hbase : session.baseSize < session.flushCursor) :
    session.readyBlocks.filter session.unpublished =
      session.blocksFrom (session.baseSize / session.layout.blockSize) := by
  apply filter_congr
  intro block hblock
  have hbeyond := h.laid.beyond_iff h.size_pos hbase hblock
  simp only [unpublished, hmode, reduceCtorEq, false_or, decide_eq_decide]
  exact hbeyond

theorem filter_unchanged (h : session.LaidFrom first) (hmode : session.mode = .append)
    (hbase : session.baseSize = session.flushCursor) :
    session.readyBlocks.filter session.unpublished = [] := by
  apply filter_eq_nil_iff.2
  intro block hblock
  obtain ⟨index, _, _, hend⟩ := h.laid.mem hblock
  simp only [unpublished, hmode, hend, hbase, reduceCtorEq, false_or, decide_eq_true_eq]
  omega

variable {file : FileData}

/-- `start_index` accepts blocks that lie where their ordinals say. -/
theorem startIndex_of_laid {publication : FilePublication} {start count : ℕ}
    {blocks : List ReadyBlock}
    (hcount : FileData.blockCount publication.targetSize file.layout.blockSize = .ok count)
    (htail : publication.tailIndex file count = .ok start)
    (hblocks : publication.blocks = blocks.map ReadyBlock.committed)
    (hlaid : Laid file.layout.blockSize publication.targetSize start blocks)
    (hlength : start + blocks.length = count) : publication.startIndex file = .ok start := by
  have hcovers : ¬(start > count ∨ publication.blocks.length ≠ count - start) := by
    rw [hblocks, List.length_map]
    omega
  have hlens := hlaid.blockLensMatch
  unfold FilePublication.startIndex
  rw [hcount]
  simp only [htail]
  rw [if_neg hcovers, hblocks, hlens]
  simp

/-- The blocks from `start` on are a payload that Metadata accepts. -/
theorem publishesFrom (h : session.LaidFrom first)
    (hlimit : FileData.requiredBlocks session.cursor session.layout.blockSize ≤ maxFileBlocks)
    (hlayout : file.layout = session.layout) {start : ℕ}
    (htail : session.publication.tailIndex file (FileData.requiredBlocks session.cursor
      session.layout.blockSize) = .ok start)
    (hfilter : session.readyBlocks.filter session.unpublished = session.blocksFrom start)
    (hlaid : Laid session.layout.blockSize session.cursor start (session.blocksFrom start))
    (hlength : start + (session.blocksFrom start).length = FileData.requiredBlocks session.cursor
      session.layout.blockSize) : session.PublishesFrom file start := by
  have hcount : FileData.blockCount session.publication.targetSize file.layout.blockSize =
      .ok (FileData.requiredBlocks session.cursor session.layout.blockSize) := by
    rw [FileData.blockCount, hlayout, if_neg h.size_pos.ne']
    exact if_neg (not_lt.2 hlimit)
  have hblocks : session.publicationBlocks = (session.blocksFrom start).map committed := by
    rw [publicationBlocks, hfilter]
  have hlaid' : Laid file.layout.blockSize session.publication.targetSize start
      (session.blocksFrom start) := by
    rw [hlayout]
    exact hlaid
  have hordinals := hlaid.ordinals h.size_pos
  refine ⟨startIndex_of_laid hcount htail hblocks hlaid' hlength, hblocks, ?_⟩
  rw [← hlength, Nat.add_sub_cancel_left]
  exact hordinals

theorem blocksFrom_count (h : session.LaidFrom first)
    (hflushed : session.cursor = session.flushCursor) :
    session.blocksFrom (FileData.requiredBlocks session.cursor session.layout.blockSize) = [] := by
  have htotal := h.laid.length_add h.size_pos h.starts
  apply filter_eq_nil_iff.2
  intro block hblock
  have hmem : session.ordinal block ∈ range' first session.readyBlocks.length := by
    rw [← h.laid.ordinals h.size_pos]
    exact mem_map_of_mem hblock
  have hlt := (mem_range'_1.1 hmem).2
  rw [hflushed]
  simp only [decide_eq_true_eq, not_le]
  omega

theorem publishes (h : session.LaidFrom first) (hflushed : session.cursor = session.flushCursor)
    (hlimit : FileData.requiredBlocks session.cursor session.layout.blockSize ≤ maxFileBlocks)
    (hlayout : file.layout = session.layout) : ∃ start, session.PublishesFrom file start := by
  have hsize := h.size_pos
  have htotal := h.laid.length_add hsize h.starts
  cases hmode : session.mode with
  | overwrite =>
    have hfirst := h.replaces hmode
    have hall : session.blocksFrom 0 = session.readyBlocks := by
      simp [blocksFrom]
    refine ⟨0, h.publishesFrom hlimit hlayout ?_ ?_ ?_ ?_⟩
    · simp [tailIndex, publication, publishMode, hmode]
    · rw [filter_overwrite hmode, hall]
    · rw [hall, hflushed, ← hfirst]
      exact h.laid
    · rw [hall, hflushed, ← htotal, hfirst]
  | append =>
    obtain ⟨hstarts, hbase⟩ := h.appends hmode
    rcases hbase.lt_or_eq with hlt | heq
    · have hlt' : session.baseSize < session.flushCursor := hflushed ▸ hlt
      have hlaid := h.laid.filter_beyond hsize hlt' hstarts
      have hdiv : session.baseSize / session.layout.blockSize * session.layout.blockSize ≤
          session.flushCursor := (Nat.div_mul_le_self _ _).trans hlt'.le
      refine ⟨_, h.publishesFrom hlimit hlayout ?_ (h.filter_append hmode hlt') ?_ ?_⟩
      · simp only [tailIndex, publication, publishMode, hmode]
        rw [if_neg (by omega), if_neg (by omega), hlayout]
      · rw [hflushed]
        exact hlaid
      · rw [hflushed]
        exact hlaid.length_add hsize hdiv
    · have hnone := h.filter_unchanged hmode (heq.trans hflushed)
      have hbeyond := h.blocksFrom_count hflushed
      refine ⟨_, h.publishesFrom hlimit hlayout ?_ (hnone.trans hbeyond.symm) ?_ ?_⟩
      · simp [tailIndex, publication, publishMode, hmode, heq, publicationBlocks, hnone]
      · rw [hbeyond, hflushed, ← htotal]
        exact h.laid.flush_le
      · rw [hbeyond]
        rfl

end WriteSession.LaidFrom

/-! ## Every step keeps the layout -/

def WriteSession.Continues (session : WriteSession) (first : ℕ) (target : LocatedBlock) : Prop :=
  ∃ full, FullFrom session.layout.blockSize first full ∧
    (∀ len, WriteSession.withCheckpoint session.readyBlocks target len = full ++ [⟨target, len⟩]) ∧
    target.blockSize = session.layout.blockSize ∧
    target.fileOffset = (first + full.length) * session.layout.blockSize

namespace WriteSession.LaidFrom

variable {session session' : WriteSession} {first : ℕ}

theorem sameBytes (h : session.LaidFrom first) (hkept : SameBytes session session') :
    session'.LaidFrom first where
  size_pos := by rw [hkept.layout]; exact h.size_pos
  grouped := hkept.writeGroup h.grouped
  laid := by rw [hkept.layout, hkept.flushCursor, hkept.readyBlocks]; exact h.laid
  starts := by rw [hkept.layout, hkept.flushCursor]; exact h.starts
  flushed := by rw [hkept.flushCursor, hkept.cursor]; exact h.flushed
  replaces := by rw [hkept.mode]; exact h.replaces
  appends := by rw [hkept.mode, hkept.layout, hkept.baseSize, hkept.cursor]; exact h.appends

theorem full_of_reusableTail (h : session.LaidFrom first) (hnone : session.reusableTail = none) :
    FullFrom session.layout.blockSize first session.readyBlocks ∧ session.flushCursor =
        (first + session.readyBlocks.length) * session.layout.blockSize := by
  have hlaid := h.laid
  rcases eq_nil_or_concat' session.readyBlocks with hnil | ⟨init, last, hconcat⟩
  · rw [hnil] at hlaid ⊢
    exact ⟨trivial, le_antisymm hlaid h.starts⟩
  · rw [hconcat, laid_concat] at hlaid
    obtain ⟨hfull, hsize, hoffset, _, hle, hend⟩ := hlaid
    have hlast : last.target.blockSize ≤ last.writtenLen := by
      by_contra hshort
      obtain ⟨group, hgroup⟩ := Option.isSome_iff_exists.1 h.grouped
      simp [reusableTail, hconcat, hgroup, hshort] at hnone
    rw [hconcat, fullFrom_concat, length_append, length_singleton, ← Nat.add_assoc, Nat.add_mul _ 1,
      Nat.one_mul]
    rw [hsize] at hlast
    exact ⟨⟨hfull, hsize, hoffset, by omega⟩, by omega⟩

variable {target : LocatedBlock}

theorem continues_allocated (h : session.LaidFrom first) (hnone : session.reusableTail = none)
    (hplaced : target.fileOffset % session.layout.blockSize = 0)
    (hfresh : ∀ last ∈ session.readyBlocks.getLast?, last.target.blockId ≠ target.blockId)
    (haccepts : session.AcceptsTarget target) : session.Continues first target := by
  obtain ⟨hfull, hflush⟩ := h.full_of_reusableTail hnone
  have hoffset := haccepts.offset_eq
  have hwrite := haccepts.writeOffset_lt
  rw [haccepts.blockSize_eq] at hwrite
  have hzero : target.writeOffset = 0 := by
    have hmod : (target.fileOffset + target.writeOffset) % session.layout.blockSize = 0 := by
      rw [hoffset, hflush, Nat.mul_mod_left]
    rwa [Nat.add_mod, hplaced, Nat.zero_add, Nat.mod_mod, Nat.mod_eq_of_lt hwrite] at hmod
  have hkeeps : ¬session.readyBlocks.getLast?.any (·.target.blockId = target.blockId) = true := by
    intro hany
    obtain ⟨last, hlast, hid⟩ := (Option.any_eq_true _ _).1 hany
    exact hfresh last hlast (of_decide_eq_true hid)
  refine ⟨session.readyBlocks, hfull, fun len => ?_, haccepts.blockSize_eq, by omega⟩
  rw [withCheckpoint, if_neg hkeeps]

theorem continues_tail (h : session.LaidFrom first) {group : GroupName}
    (htail : session.reusableTail = some (group, target)) : session.Continues first target := by
  have hlaid := h.laid
  rcases eq_nil_or_concat' session.readyBlocks with hnil | ⟨init, last, hconcat⟩
  · simp [reusableTail, hnil] at htail
  · rw [hconcat, laid_concat] at hlaid
    obtain ⟨hfull, hsize, hoffset, _⟩ := hlaid
    obtain ⟨recorded, hgroup⟩ := Option.isSome_iff_exists.1 h.grouped
    have htarget : target = { last.target with writeOffset := last.writtenLen } := by
      by_cases hshort : last.writtenLen ≥ last.target.blockSize
      · simp [reusableTail, hconcat, hshort] at htail
      · simp [reusableTail, hconcat, hgroup, hshort] at htail
        exact htail.2.symm
    rw [htarget]
    refine ⟨init, hfull, fun len => ?_, hsize, hoffset⟩
    simp [withCheckpoint, hconcat]

theorem checkpoint (h : session.LaidFrom first) {writtenLen : ℕ}
    (hcontinues : session.Continues first target) (hbyte : 1 ≤ writtenLen)
    (hle : writtenLen ≤ target.blockSize) (hend : target.fileOffset + writtenLen = session.cursor) :
    WriteSession.LaidFrom { session with
      readyBlocks := withCheckpoint session.readyBlocks target writtenLen
      flushCursor := session.cursor } first := by
  obtain ⟨full, hfull, hcheckpoint, hsize, hoffset⟩ := hcontinues
  have hfirst : first * session.layout.blockSize ≤
      (first + full.length) * session.layout.blockSize :=
    Nat.mul_le_mul_right _ (Nat.le_add_right _ _)
  refine ⟨h.size_pos, h.grouped, ?_, ?_, le_rfl, h.replaces, h.appends⟩
  · show Laid session.layout.blockSize session.cursor first _
    rw [hcheckpoint, laid_concat]
    rw [hsize] at hle
    exact ⟨hfull, hsize, hoffset, by omega, by omega, hoffset ▸ hend⟩
  · show first * session.layout.blockSize ≤ session.cursor
    omega

end WriteSession.LaidFrom

theorem WriteSession.Continues.sameBytes {session session' : WriteSession} {first : ℕ}
    {target : LocatedBlock} (h : session.Continues first target)
    (hkept : WriteSession.SameBytes session session') : session'.Continues first target := by
  unfold WriteSession.Continues at h ⊢
  rwa [hkept.layout, hkept.readyBlocks]

/-- The blocks lie consecutively, and the open stream continues them. -/
structure Writing.Sound (first : ℕ) (writing : Writing) : Prop where
  laidFrom : writing.session.LaidFrom first
  continues : ∀ target ∈ writing.opened, writing.session.Continues first target

namespace Writing

variable {writing : Writing} {first : ℕ} {session : WriteSession} {group : GroupName}
  {allocated : LocatedBlock} {nowMs : ℕ}

theorem Sound.sameBytes (h : writing.Sound first)
    (hkept : WriteSession.SameBytes writing.session session) :
    Sound first { writing with session := session } :=
  ⟨h.laidFrom.sameBytes hkept, fun target htarget => (h.continues target htarget).sameBytes hkept⟩

theorem Sound.run_sameBytes (h : writing.Sound first) {α : Type} {call : SessionM α}
    (hcall : Ensures call writing.session
      (fun _ session' => WriteSession.SameBytes writing.session session')
      (fun _ session' => WriteSession.SameBytes writing.session session')) :
    Sound first { writing with session := (call writing.session).2 } := by
  apply h.sameBytes
  unfold Ensures at hcall
  split at hcall
  next hrun => rwa [hrun]
  next hrun => rwa [hrun]

theorem after_openBlock_ok {target : LocatedBlock}
    (hrun : openBlockWrite group allocated nowMs writing.session = (.ok target,
      session)) : writing.after (.openBlock group allocated nowMs) = ⟨session, some target⟩ := by
  simp only [after, hrun]

theorem after_openBlock_error {error : ClientError}
    (hrun : openBlockWrite group allocated nowMs writing.session = (.error error,
      session)) : writing.after (.openBlock group allocated nowMs) = ⟨session, none⟩ := by
  simp only [after, hrun]

section

variable (h : writing.Sound first)
include h

theorem Sound.openBlock (hplaced : writing.Placed (.openBlock group allocated nowMs)) :
    (writing.after (.openBlock group allocated nowMs)).Sound first := by
  have hspec := openBlockWrite_ensures writing.session group allocated nowMs
  rcases hrun : openBlockWrite group allocated nowMs writing.session with
    ⟨error | target, session⟩
  · rw [after_openBlock_error hrun]
    refine ⟨h.laidFrom.sameBytes (hspec.of_error hrun).toSameBytes, ?_⟩
    intro opened hopened
    cases hopened
  · rw [after_openBlock_ok hrun]
    obtain ⟨htarget, haccepts, hkept, _⟩ := hspec.of_ok hrun
    refine ⟨h.laidFrom.sameBytes hkept.toSameBytes, fun opened hopened => ?_⟩
    cases hopened
    apply WriteSession.Continues.sameBytes _ hkept.toSameBytes
    cases htail : writing.session.reusableTail with
    | none =>
      have hnext : target = allocated := by
        rw [htarget, nextTarget, htail]
        rfl
      rw [hnext] at haccepts ⊢
      exact h.laidFrom.continues_allocated htail (hplaced.1 htail) (hplaced.2 htail) haccepts
    | some tail =>
      have hnext : target = tail.2 := by
        rw [htarget, nextTarget, htail]
        rfl
      rw [hnext]
      exact h.laidFrom.continues_tail htail

theorem Sound.acceptFrame (len : ℕ) : (writing.after (.acceptFrame len)).Sound first := by
  have hlaid := h.laidFrom
  show Sound first (writing.run _)
  unfold run advanceCursor
  rw [current_bind]
  cases hsum : checkedAddU64 writing.session.cursor len with
  | none => exact h
  | some cursor =>
    have hcursor := (checkedAddU64_eq_some hsum).1
    have hmore : writing.session.cursor ≤ cursor := by omega
    refine ⟨⟨hlaid.size_pos, hlaid.grouped, hlaid.laid, hlaid.starts, hlaid.flushed.trans hmore,
      hlaid.replaces, fun hmode => ?_⟩, h.continues⟩
    exact ⟨(hlaid.appends hmode).1, (hlaid.appends hmode).2.trans hmore⟩

theorem Sound.finishBlock {writtenLen : ℕ} (hbyte : 1 ≤ writtenLen) :
    (writing.after (.finishBlock writtenLen)).Sound first := by
  show Sound first (match writing.opened with
    | none => writing
    | some target =>
      ⟨(finishBlockWrite target writtenLen writing.session).2, none⟩)
  split
  · exact h
  next target hopened =>
    have hspec := finishBlockWrite_ensures writing.session target writtenLen
    have hcontinues := h.continues target hopened
    refine ⟨?_, fun opened hnone => by cases hnone⟩
    unfold Ensures at hspec
    split at hspec
    next hrun =>
      obtain ⟨⟨_, hle, _, hend⟩, hsession⟩ := hspec
      rw [hrun, hsession]
      exact h.laidFrom.checkpoint hcontinues hbyte hle hend
    next hrun =>
      rw [hrun, hspec]
      exact h.laidFrom.sameBytes (WriteSession.Kept.mark _ (by decide)).toSameBytes

theorem Sound.completeSync (generation : ContentGeneration) :
    (writing.after (.completeSync generation)).Sound first := by
  have hlaid := h.laidFrom
  have hspec := markSyncCompleted_ensures writing.session generation writing.session.cursor
  show Sound first (writing.run _)
  unfold run
  unfold Ensures at hspec
  split at hspec
  next hrun =>
    rw [hrun, hspec.2]
    refine ⟨⟨hlaid.size_pos, hlaid.grouped, hlaid.laid, hlaid.starts, hlaid.flushed,
      (fun hmode => by cases hmode), fun _ => ⟨hlaid.starts.trans hlaid.flushed, le_rfl⟩⟩,
      h.continues⟩
  next hrun =>
    rw [hrun, hspec]
    exact h

theorem Sound.step {step : SessionStep}
    (henabled : writing.Enabled step) (hplaced : writing.Placed step) :
    (writing.after step).Sound first := by
  cases step with
  | guard operation nowMs =>
    apply h.run_sameBytes
    apply (ensureOperationAllowedAtMs_ensures writing.session operation nowMs).mono
    · intro _ session' hsame
      rw [hsame]
      exact WriteSession.SameBytes.refl _
    · intro _ session' hsame
      rcases hsame with hsame | hsame
      · rw [hsame]
        exact WriteSession.SameBytes.refl _
      · rw [hsame]
        exact (WriteSession.Kept.mark _ (by decide)).toSameBytes
  | openBlock => exact h.openBlock hplaced
  | acceptFrame len => exact h.acceptFrame len
  | finishBlock => exact h.finishBlock henabled.2
  | dropBlock => exact ⟨h.laidFrom, fun opened hnone => by cases hnone⟩
  | startSync callId =>
    apply h.run_sameBytes
    apply Ensures.bind (prepareSyncWrite_sameBytes writing.session callId _ _)
      (fun _ _ hkept => hkept)
    exact fun _ _ hkept => ensures_pure hkept
  | completeSync generation => exact h.completeSync generation
  | startClose callId =>
    apply h.run_sameBytes
    apply Ensures.bind (prepareCommitFile_sameBytes writing.session callId _ _)
      (fun _ _ hkept => hkept)
    exact fun _ _ hkept => ensures_pure hkept
  | renew => exact h.sameBytes ⟨rfl, rfl, rfl, rfl, rfl, rfl, rfl, rfl, rfl, id⟩
  | fail => exact h.sameBytes (WriteSession.Kept.mark _ henabled).toSameBytes

end

end Writing

/-! ## The first blocks of a session -/

theorem WriteSession.new_eq_ok {path : String} {layout : FileLayout} {handle : WriteHandle}
    {baseSize expiresAtMs : ℕ} {generation : ContentGeneration} {mode : WriteMode}
    {session : WriteSession}
    (h : WriteSession.new path layout handle baseSize expiresAtMs generation mode = .ok session) :
    0 < layout.blockSize ∧ session.layout = layout ∧ session.mode = mode ∧
      session.baseSize = baseSize ∧ session.readyBlocks = [] ∧
      session.cursor = session.flushCursor ∧
      session.flushCursor = (if mode = .overwrite then 0 else baseSize) ∧
      session.sync = none ∧ session.commit = none := by
  unfold new at h
  split at h
  · cases h
  · split at h
    · cases h
    next hvalid =>
      cases h
      exact ⟨((FileLayout.validate_eq_ok_iff layout).1 hvalid).2.1, rfl, rfl, rfl, rfl, rfl, rfl,
        rfl, rfl⟩

/-- What `accept_open_tail` leaves of a new session: the tail, if one is needed, and a group. -/
theorem WriteSession.acceptOpenTail_ensures (session : WriteSession) (group : GroupName)
    (tail : Option LocatedBlock) (nowMs : ℕ) :
    Ensures (WriteSession.acceptOpenTail group tail nowMs) session
      (fun _ session' =>
        (tail.isSome ↔ session.mode = .append ∧ session.baseSize % session.layout.blockSize ≠ 0) ∧
        (∀ target ∈ tail, session.AcceptsTarget target) ∧
        session' = { session with
          writeGroup := some group
          readyBlocks := session.readyBlocks ++
            (tail.map fun target => ⟨target, target.writeOffset⟩).toList })
      (fun _ _ => True) := by
  unfold acceptOpenTail
  apply ensures_read
  refine failIf_bind (fun _ => trivial) fun hneeds => ?_
  rw [not_not] at hneeds
  have htail : tail.isSome ↔ session.mode = .append ∧
      session.baseSize % session.layout.blockSize ≠ 0 := by
    rw [← hneeds, decide_eq_true_iff]
  apply (recordWriteGroup_ensures session group).bind (fun _ _ _ => trivial)
  intro _ session' hrecorded
  rw [hrecorded]
  cases tail with
  | none =>
    apply ensures_pure
    refine ⟨htail, (fun target hnone => by cases hnone), ?_⟩
    simp
  | some target =>
    apply (validateTarget_ensures _ target nowMs).bind (fun _ _ _ => trivial)
    intro _ session' ⟨hsame, haccepts⟩
    rw [hsame]
    apply ensures_update
    refine ⟨htail, fun other hother => ?_, rfl⟩
    cases hother
    exact ⟨haccepts.isOpen, haccepts.offset_eq, haccepts.blockSize_eq, haccepts.writeOffset_lt⟩

def WriteSession.OpenWriteAnswer.firstOrdinal (answer : OpenWriteAnswer) : ℕ :=
  match answer.mode with
  | .overwrite => 0
  | .append => answer.baseSize / answer.layout.blockSize

namespace WriteSession.OpenWriteAnswer

variable (answer : OpenWriteAnswer)

theorem firstOrdinal_le : answer.firstOrdinal * answer.layout.blockSize ≤
    if answer.mode = .overwrite then 0 else answer.baseSize := by
  unfold firstOrdinal
  cases answer.mode with
  | overwrite => simp
  | append => exact Nat.div_mul_le_self _ _

theorem laid_none {flush : ℕ}
    (hflush : flush = if answer.mode = .overwrite then 0 else answer.baseSize)
    (htail : (none : Option LocatedBlock).isSome ↔
      answer.mode = .append ∧ answer.baseSize % answer.layout.blockSize ≠ 0) :
    Laid answer.layout.blockSize flush answer.firstOrdinal [] := by
  show flush ≤ answer.firstOrdinal * answer.layout.blockSize
  rw [hflush]
  unfold firstOrdinal
  cases hmode : answer.mode with
  | overwrite => simp
  | append =>
    simp only [hmode, Option.isSome_none, Bool.false_eq_true, true_and, false_iff, not_not] at htail
    have hdiv := Nat.div_add_mod' answer.baseSize answer.layout.blockSize
    show answer.baseSize ≤ answer.baseSize / answer.layout.blockSize * answer.layout.blockSize
    omega

theorem laid_tail {target : LocatedBlock} (hmode : answer.mode = .append)
    (hshort : answer.baseSize % answer.layout.blockSize ≠ 0)
    (hplaced : target.fileOffset % answer.layout.blockSize = 0)
    (hoffset : target.fileOffset + target.writeOffset = answer.baseSize)
    (hsize : target.blockSize = answer.layout.blockSize)
    (hwrite : target.writeOffset < target.blockSize) :
    Laid answer.layout.blockSize answer.baseSize answer.firstOrdinal
      [⟨target, target.writeOffset⟩] := by
  rw [hsize] at hwrite
  have hrest : target.writeOffset = answer.baseSize % answer.layout.blockSize := by
    rw [← hoffset, Nat.add_mod, hplaced, Nat.zero_add, Nat.mod_mod, Nat.mod_eq_of_lt hwrite]
  have hdiv := Nat.div_add_mod' answer.baseSize answer.layout.blockSize
  show Laid _ _ _ ([] ++ [_])
  rw [laid_concat]
  unfold firstOrdinal
  simp only [hmode, length_nil, Nat.add_zero]
  exact ⟨trivial, hsize, by omega, by omega, by omega, by omega⟩

end WriteSession.OpenWriteAnswer

structure WriteSession.OpenedBy (answer : OpenWriteAnswer) (session : WriteSession) : Prop where
  size_pos : 0 < answer.layout.blockSize
  layout_eq : session.layout = answer.layout
  mode_eq : session.mode = answer.mode
  baseSize_eq : session.baseSize = answer.baseSize
  cursor_eq : session.cursor = session.flushCursor
  flush_eq : session.flushCursor = if answer.mode = .overwrite then 0 else answer.baseSize
  sync_eq : session.sync = none
  commit_eq : session.commit = none
  grouped : session.writeGroup.isSome
  blocks_eq : session.readyBlocks =
    (answer.tailBlock.map fun target => ⟨target, target.writeOffset⟩).toList
  tail_iff : answer.tailBlock.isSome ↔
    answer.mode = .append ∧ answer.baseSize % answer.layout.blockSize ≠ 0
  tail_accepted : ∀ target ∈ answer.tailBlock,
    target.fileOffset + target.writeOffset = session.flushCursor ∧
      target.blockSize = answer.layout.blockSize ∧ target.writeOffset < target.blockSize

variable {session : WriteSession}

theorem WriteSession.openedBy {answer : OpenWriteAnswer} {nowMs : ℕ}
    (hopen : writeSessionFromOpenResponse answer nowMs = .ok session) :
    session.OpenedBy answer := by
  unfold writeSessionFromOpenResponse at hopen
  cases hnew : new answer.path answer.layout answer.writeHandle answer.baseSize
      answer.expiresAtMs answer.generation answer.mode with
  | error =>
    rw [hnew] at hopen
    cases hopen
  | ok created =>
    obtain ⟨hsize, hlayout, hmode, hbase, hblocks, hcursor, hflush, hsync, hcommit⟩ :=
      new_eq_ok hnew
    rw [hnew] at hopen
    have hspec := acceptOpenTail_ensures created answer.groupName answer.tailBlock nowMs
    rcases haccept : acceptOpenTail answer.groupName answer.tailBlock nowMs created with
      ⟨error | _, accepted⟩
    · simp only [haccept] at hopen
      cases hopen
    · simp only [haccept, Except.ok.injEq] at hopen
      obtain ⟨htail, haccepts, haccepted⟩ := hspec.of_ok haccept
      rw [hmode, hbase, hlayout] at htail
      rw [← hopen, haccepted]
      refine ⟨hsize, hlayout, hmode, hbase, hcursor, hflush, hsync, hcommit, rfl, ?_, htail,
        fun target htarget => ?_⟩
      · show created.readyBlocks ++ _ = _
        rw [hblocks, nil_append]
      · have haccepts := haccepts target htarget
        exact ⟨haccepts.offset_eq, haccepts.blockSize_eq.trans (by rw [hlayout]),
          haccepts.writeOffset_lt⟩

theorem WriteSession.OpenedBy.laid {answer : OpenWriteAnswer} (h : session.OpenedBy answer)
    (hplaced : ∀ tail ∈ answer.tailBlock, tail.fileOffset % answer.layout.blockSize = 0) :
    Laid answer.layout.blockSize session.flushCursor answer.firstOrdinal session.readyBlocks := by
  have htail := h.tail_iff
  rw [h.blocks_eq]
  cases hanswer : answer.tailBlock with
  | none =>
    rw [hanswer] at htail
    exact answer.laid_none h.flush_eq htail
  | some target =>
    have hmem : target ∈ answer.tailBlock := hanswer
    obtain ⟨hoffset, hsize, hwrite⟩ := h.tail_accepted target hmem
    obtain ⟨hmode, hshort⟩ := htail.1 (by rw [hanswer]; rfl)
    have hflush : session.flushCursor = answer.baseSize := by
      rw [h.flush_eq, if_neg (by rw [hmode]; simp)]
    rw [hflush] at hoffset ⊢
    exact answer.laid_tail hmode hshort (hplaced target hmem) hoffset hsize hwrite

theorem Writing.sound_start {answer : WriteSession.OpenWriteAnswer}
    (hopen : session.OpenedBy answer)
    (hplaced : ∀ tail ∈ answer.tailBlock, tail.fileOffset % answer.layout.blockSize = 0) :
    Sound answer.firstOrdinal ⟨session, none⟩ := by
  have hlaid := hopen.laid hplaced
  have hfirst := answer.firstOrdinal_le
  refine ⟨⟨?_, hopen.grouped, ?_, ?_, hopen.cursor_eq.ge, ?_, ?_⟩, fun target hnone => by
    cases hnone⟩
  · rw [hopen.layout_eq]
    exact hopen.size_pos
  · rw [hopen.layout_eq]
    exact hlaid
  · rw [hopen.layout_eq, hopen.flush_eq]
    exact hfirst
  · rw [hopen.mode_eq]
    intro hmode
    rw [WriteSession.OpenWriteAnswer.firstOrdinal, hmode]
  · rw [hopen.mode_eq, hopen.layout_eq, hopen.baseSize_eq, hopen.cursor_eq, hopen.flush_eq]
    intro hmode
    rw [hmode] at hfirst ⊢
    exact ⟨hfirst, le_rfl⟩

/-! ## The client and Metadata agree on the payload of a barrier -/

/-- The tail that `OpenWrite` answers with lies at a multiple of the block size. -/
def WriteSession.OpenWriteAnswer.TailAligned (answer : OpenWriteAnswer) : Prop :=
  ∀ tail ∈ answer.tailBlock, tail.fileOffset % answer.layout.blockSize = 0

instance (answer : WriteSession.OpenWriteAnswer) : Decidable answer.TailAligned :=
  inferInstanceAs (Decidable
    (∀ tail ∈ answer.tailBlock, tail.fileOffset % answer.layout.blockSize = 0))

/-- The bytes of the session fit into the blocks that one file may have. -/
def WriteSession.WithinLimit (session : WriteSession) : Prop :=
  FileData.requiredBlocks session.cursor session.layout.blockSize ≤ maxFileBlocks

instance (session : WriteSession) : Decidable session.WithinLimit :=
  inferInstanceAs (Decidable
    (FileData.requiredBlocks session.cursor session.layout.blockSize ≤ maxFileBlocks))

theorem placed_publications_accepted {answer : WriteSession.OpenWriteAnswer} {nowMs : ℕ}
    {session : WriteSession} {past : List (History.Transition Writing SessionStep)}
    {writing : Writing} {file : FileData}
    (hopen : WriteSession.writeSessionFromOpenResponse answer nowMs = .ok session)
    (htail : answer.TailAligned) (hrun : Written Writing.Placed ⟨session, none⟩ past writing)
    (_hstate : writing.session.state = .opened)
    (hflushed : writing.session.cursor = writing.session.flushCursor)
    (hlimit : writing.session.WithinLimit) (hlayout : file.layout = writing.session.layout) :
    ∃ start, writing.session.PublishesFrom file start := by
  have hsound : writing.Sound answer.firstOrdinal := by
    apply hrun.invariant (Writing.sound_start (openedBy hopen) htail)
    intro past writing step writing' _ hsound hplaced hstep
    rw [hstep.2]
    exact hsound.step hstep.1 hplaced
  exact hsound.laidFrom.publishes hflushed hlimit hlayout

/-! ### Sessions with blocks of 64 bytes -/

def sampleGroup : GroupName := ⟨"root", checkGroupName_root⟩

def sampleOpen (mode : WriteMode) (baseSize : ℕ) : WriteSession.OpenWriteAnswer where
  path := "/log"
  layout := ⟨64, BlockFormatId.durablePrefix⟩
  writeHandle := ⟨7, 1⟩
  baseSize := baseSize
  expiresAtMs := 60000
  generation := 1
  mode := mode
  groupName := sampleGroup
  tailBlock := none

def sampleTarget (index fileOffset writeOffset : ℕ) : LocatedBlock where
  blockId := ⟨7, index⟩
  fileOffset := fileOffset
  blockSize := 64
  workerEndpoints := []
  fencingToken := ⟨⟨7, index⟩, 3, 1⟩
  writeOffset := writeOffset
  chunkSize := durablePrefixStorageChunkSize
  blockFormatId := BlockFormatId.durablePrefix
  tier := .ssd

def sampleFile : FileData where
  layout := ⟨64, BlockFormatId.durablePrefix⟩
  len := 0
  generation := 1
  blocks := []
  nextIndex := 2
  leaseEpoch := 1
  lastCommit := none

/-- Every step of the list can be taken, and is admitted, when its turn comes. -/
def Takes (admits : Writing → SessionStep → Prop) : Writing → List SessionStep → Prop
  | _, [] => True
  | writing, step :: rest =>
    (admits writing step ∧ writing.Enabled step) ∧ Takes admits (writing.after step) rest

instance Takes.decidable (admits : Writing → SessionStep → Prop)
    [∀ writing, DecidablePred (admits writing)] :
    ∀ (steps : List SessionStep) (writing : Writing), Decidable (Takes admits writing steps)
  | [], _ => inferInstanceAs (Decidable True)
  | step :: rest, writing =>
    have := Takes.decidable admits rest (writing.after step)
    inferInstanceAs (Decidable ((admits writing step ∧ writing.Enabled step) ∧
      Takes admits (writing.after step) rest))

theorem Takes.written {admits : Writing → SessionStep → Prop} {start writing : Writing}
    {past : List (History.Transition Writing SessionStep)} {steps : List SessionStep}
    (htakes : Takes admits writing steps) (hrun : Written admits start past writing) :
    ∃ past, Written admits start past (steps.foldl Writing.after writing) := by
  induction steps generalizing past writing with
  | nil => exact ⟨past, hrun⟩
  | cons step rest ih => exact ih htakes.2 (.next hrun htakes.1.1 ⟨htakes.1.2, rfl⟩)

def sampleStream (target : LocatedBlock) (writtenLen : ℕ) : List SessionStep :=
  [.openBlock sampleGroup target 0, .acceptFrame (writtenLen - target.writeOffset),
    .finishBlock writtenLen]

/-- A replacement is synced with a partial tail, which the next stream then continues. -/
def sampleSynced : List SessionStep :=
  sampleStream (sampleTarget 0 0 0) 64 ++ sampleStream (sampleTarget 1 64 0) 10 ++
    [.startSync 5, .completeSync 2, .openBlock sampleGroup (sampleTarget 2 128 0) 0,
      .acceptFrame 20, .finishBlock 30]

def sampleReplacement : WriteSession where
  path := "/log"
  inodeId := 7
  layout := ⟨64, BlockFormatId.durablePrefix⟩
  generation := 1
  mode := .overwrite
  writeHandle := ⟨7, 1⟩
  baseSize := 0
  cursor := 0
  flushCursor := 0
  expiresAtMs := some 60000
  readyBlocks := []
  writeGroup := some sampleGroup
  state := .opened
  sync := none
  commit := none

theorem placed_publications_accepted_synced :
    (sampleSynced.foldl Writing.after ⟨sampleReplacement, none⟩).session.publicationBlocks =
      [⟨⟨7, 1⟩, 30⟩] ∧
    ∃ start, (sampleSynced.foldl Writing.after ⟨sampleReplacement, none⟩).session.PublishesFrom
      sampleFile start := by
  have hopen : writeSessionFromOpenResponse (sampleOpen .overwrite 0) 0 =
      .ok sampleReplacement := rfl
  have htakes : Takes Writing.Placed ⟨sampleReplacement, none⟩ sampleSynced := by decide
  obtain ⟨past, hrun⟩ := htakes.written .start
  exact ⟨rfl, placed_publications_accepted hopen (by decide) hrun rfl rfl (by decide) rfl⟩

/-- In every run of a session that meets the three conditions, a barrier over flushed bytes is
accepted and publishes the blocks from the changed tail on. -/
def PublicationsAgree (opens : WriteSession.OpenWriteAnswer → Prop)
    (admits : Writing → SessionStep → Prop) (within : WriteSession → Prop) : Prop :=
  ∀ (answer : WriteSession.OpenWriteAnswer) (nowMs : ℕ) (session : WriteSession)
    (past : List (History.Transition Writing SessionStep)) (writing : Writing) (file : FileData),
    WriteSession.writeSessionFromOpenResponse answer nowMs = .ok session → opens answer →
    Written admits ⟨session, none⟩ past writing →
    writing.session.state = .opened →
    writing.session.cursor = writing.session.flushCursor → within writing.session →
    file.layout = writing.session.layout →
    ∃ start, writing.session.PublishesFrom file start

theorem not_agree {opens : WriteSession.OpenWriteAnswer → Prop}
    {admits : Writing → SessionStep → Prop} {within : WriteSession → Prop}
    (answer : WriteSession.OpenWriteAnswer) (steps : List SessionStep) {error : MetadataError}
    (hopen : writeSessionFromOpenResponse answer 0 = .ok session)
    (hopens : opens answer) (htakes : Takes admits ⟨session, none⟩ steps)
    (hstate : (steps.foldl Writing.after ⟨session, none⟩).session.state = .opened)
    (hflushed : (steps.foldl Writing.after ⟨session, none⟩).session.cursor =
      (steps.foldl Writing.after ⟨session, none⟩).session.flushCursor)
    (hwithin : within (steps.foldl Writing.after ⟨session, none⟩).session)
    (hlayout : sampleFile.layout = (steps.foldl Writing.after ⟨session, none⟩).session.layout)
    (hrefused : (steps.foldl Writing.after ⟨session, none⟩).session.publication.startIndex
      sampleFile = .error error) : ¬PublicationsAgree opens admits within := by
  intro hagree
  obtain ⟨past, hrun⟩ := htakes.written .start
  obtain ⟨start, hstart⟩ := hagree answer 0 session past _ sampleFile hopen hopens hrun hstate
    hflushed hwithin hlayout
  have haccepted := hstart.accepted
  rw [hrefused] at haccepted
  cases haccepted

/-- None of the conditions can be dropped: a tail or a target away from its ordinal, a target
that repeats the last block, and one block more than a file may have are all accepted by the
session and refused by Metadata. -/
theorem unplaced_publications_refused :
    ¬PublicationsAgree (fun _ => True) Writing.Placed WriteSession.WithinLimit ∧
    ¬PublicationsAgree WriteSession.OpenWriteAnswer.TailAligned Writing.Fresh
      WriteSession.WithinLimit ∧
    ¬PublicationsAgree WriteSession.OpenWriteAnswer.TailAligned Writing.Aligned
      WriteSession.WithinLimit ∧
    ¬PublicationsAgree WriteSession.OpenWriteAnswer.TailAligned Writing.Placed (fun _ => True) := by
  refine ⟨?_, ?_, ?_, ?_⟩
  · exact not_agree { sampleOpen .append 100 with tailBlock := some (sampleTarget 1 99 1) }
      (sampleStream (sampleTarget 1 99 1) 2) rfl trivial (by decide) rfl rfl (by decide) rfl rfl
  · exact not_agree (sampleOpen .overwrite 0)
      (sampleStream (sampleTarget 0 0 0) 64 ++ sampleStream (sampleTarget 1 32 32) 33)
      rfl (by decide) (by decide) rfl rfl (by decide) rfl rfl
  · exact not_agree (sampleOpen .overwrite 0)
      (sampleStream (sampleTarget 0 0 0) 64 ++ sampleStream (sampleTarget 0 64 0) 1)
      rfl (by decide) (by decide) rfl rfl (by decide) rfl rfl
  · exact not_agree (sampleOpen .append (10000 * 64))
      (sampleStream (sampleTarget 10000 (10000 * 64) 0) 1)
      rfl (by decide) (by decide) rfl rfl trivial rfl rfl

end Beryl.Client
