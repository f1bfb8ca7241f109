import Beryl.CommitReplay
import Beryl.TargetChain

/-!
# The leader and the state machine agree on payloads

A payload is checked twice: by the leader against the targets of the session, and by the
state machine against the inode.  On the inode that the session is based on, what the first
check accepts passes the second, and the file becomes the untouched blocks followed by
those of the payload.
-/

namespace Beryl

open History Transaction FileData FilePublication CloseWriteIntent Reached CommittedBlock List

def CloseWriteIntent.publication (intent : CloseWriteIntent) (leaseEpoch : LeaseEpoch)
    (generation : ContentGeneration) (mode : PublishMode) : FilePublication where
  blocks := intent.committedBlocks
  targetSize := intent.finalSize
  expectedGeneration := generation
  expectedFileSize := intent.expectedFileSize
  leaseEpoch := leaseEpoch
  mode := mode

def WriteSession.publication (session : WriteSession) (intent : CloseWriteIntent) :
    FilePublication :=
  intent.publication session.leaseEpoch session.generation (publishModeForSession session)

/-! ## Where sessions stand -/

structure WriteSession.BasedOn (session : WriteSession) (file : FileData) : Prop where
  generation : session.generation = file.generation
  size : session.baseSize = file.len
  epoch : session.leaseEpoch = file.leaseEpoch
  layout : session.layout = file.layout

/-- The block was allocated for the session's inode while the file was at the generation
that the session has recorded. -/
def WriteSession.AllocatedIn (session : WriteSession) (past : Past) (blockId : BlockId) :
    Prop :=
  ∃ t ∈ past, ∃ leaseEpoch inode file,
    t.label.command = .allocateBlock session.inodeId leaseEpoch ∧
    t.label.success = some (.blockAllocated blockId) ∧
    t.before.inode session.inodeId = some inode ∧ inode.kind = .file file ∧
    file.generation = session.generation

/-- Targets that a payload may publish were allocated; the one inside the file is its
partial tail. -/
structure WriteSession.TargetsAllocated (session : WriteSession) (past : Past)
    (file : FileData) : Prop where
  new : ∀ target ∈ session.issuedTargets,
    session.mode = .overwrite ∨ session.baseSize ≤ target.fileOffset →
      session.AllocatedIn past target.blockId
  tail : session.mode = .append → session.baseSize % session.layout.blockSize ≠ 0 →
    ∀ target ∈ session.issuedTargets,
      target.fileOffset = session.baseSize / session.layout.blockSize *
        session.layout.blockSize → file.blocks.getLast? = some target.blockId

theorem WriteSession.AllocatedIn.fresh {session : WriteSession} {past : Past} {s : Store}
    {blockId : BlockId} (h : session.AllocatedIn past blockId) (hrun : Reached past s)
    {inode : Inode} {file : FileData} (hinode : s.inode session.inodeId = some inode)
    (hkind : inode.kind = .file file) (hgeneration : session.generation = file.generation) :
    blockId.inodeId = session.inodeId ∧ blockId.index < file.nextIndex ∧ blockId ∉ file.blocks := by
  obtain ⟨t, ht, leaseEpoch, old, oldFile, hcommand, hsuccess, hold, hkindOld, hsame⟩ := h
  obtain ⟨older, hbefore, -, hstep⟩ := Run.of_mem hrun ht
  have hkeyed := keyed hbefore
  rcases hstep.cases with ⟨success, batch, hsome, heffect, hafter⟩ | ⟨hnone, -⟩
  · rw [hsome] at hsuccess
    cases hsuccess
    rw [hcommand] at heffect
    generalize hresult : ApplySuccess.blockAllocated blockId = success at heffect
    cases heffect with
    | blockAllocated hfile =>
      cases hresult
      cases hfile.inode_eq.symm.trans hold
      cases hfile.kind_eq.symm.trans hkindOld
      have hnew : t.after.inode session.inodeId =
          some (old.withFile { oldFile with nextIndex := oldFile.nextIndex + 1 }) := by
        rw [hafter]
        exact Store.inode_applyBatch_putInode hfile.id_eq
      obtain ⟨later, hlater⟩ := Run.of_mem_visited hrun (Run.after_mem_visited hrun ht)
      have hversion := (evolves hrun (Run.after_mem_visited hrun ht)).version
        (keyed hlater) hnew hinode
      obtain ⟨file', hkind', hevolves⟩ := hversion.of_file rfl
      cases hkind.symm.trans hkind'
      have hindexLe : oldFile.nextIndex + 1 ≤ file.nextIndex := hevolves.index_le
      have hblocks : file.blocks = oldFile.blocks :=
        (hevolves.content_eq (hgeneration.symm.trans hsame.symm)).1
      refine ⟨rfl, by simpa using hindexLe, ?_⟩
      intro hmem
      rw [hblocks] at hmem
      have hallocated := (wellShaped hfile.valid).block_allocated _ hmem
      simp at hallocated
  · rw [hnone] at hsuccess
    cases hsuccess

/-! ## The second check -/

theorem blockLensMatch_of_lens {targetSize capacity : ℕ} :
    ∀ {blocks : List CommittedBlock} {ordinal : ℕ},
      (∀ (index : ℕ) (block : CommittedBlock), blocks[index]? = some block →
        block.len = visibleBlockLen targetSize capacity (ordinal + index)) →
      FilePublication.blockLensMatch targetSize capacity ordinal blocks = true := by
  intro blocks
  induction blocks with
  | nil =>
    intro ordinal _
    rfl
  | cons block blocks ih =>
    intro ordinal hlens
    unfold blockLensMatch
    rw [Bool.and_eq_true, decide_eq_true_eq]
    refine ⟨hlens 0 block rfl, ih ?_⟩
    intro index found hfound
    have hlen := hlens (index + 1) found hfound
    rwa [← Nat.add_assoc, Nat.add_right_comm] at hlen

theorem appendBlocks_of_new {inodeId : InodeId} {file : FileData} {mode : PublishMode}
    {published : List CommittedBlock} : ∀ {blocks : List BlockId},
      (∀ block ∈ published, block.blockId.inodeId = inodeId ∧ block.blockId.index < file.nextIndex ∧
        (mode = .replaceIfUnchanged → block.blockId ∉ file.blocks)) →
      (blocks ++ published.map blockId).Nodup →
      FilePublication.appendBlocks inodeId file mode blocks published =
        .ok (blocks ++ published.map blockId) := by
  induction published with
  | nil =>
    intro blocks _ _
    unfold appendBlocks
    rw [map_nil, append_nil]
  | cons block published ih =>
    intro blocks hnew hnodup
    obtain ⟨hinode, hindex, hreplaces⟩ := hnew block mem_cons_self
    have hfresh : block.blockId ∉ blocks := by
      intro hmem
      have hdisjoint := (nodup_append.1 hnodup).2.2
      exact hdisjoint _ hmem _ mem_cons_self rfl
    unfold appendBlocks
    rw [if_neg (by simp [hinode, hindex, hfresh]),
      if_neg fun hboth => hreplaces hboth.1 hboth.2, map_cons]
    rw [map_cons, append_cons] at hnodup
    rw [append_cons blocks block.blockId (published.map blockId)]
    exact ih (fun other hother => hnew other (mem_cons_of_mem _ hother)) hnodup

section Agreement

variable {session : WriteSession} {intent : CloseWriteIntent} {file : FileData} {count : ℕ}

theorem WriteSession.publication_mode (session : WriteSession) (intent : CloseWriteIntent) :
    (session.publication intent).mode =
      if session.mode = .overwrite then .replaceIfUnchanged else .appendIfUnchanged := by
  show publishModeForSession session = _
  unfold publishModeForSession
  cases session.mode with
  | overwrite | append => rfl

theorem CloseWriteIntent.Accepted.startIndex (h : intent.Accepted session count)
    (hbase : session.BasedOn file) :
    (session.publication intent).startIndex file = .ok (intent.start session count) := by
  have hcount : FileData.blockCount (session.publication intent).targetSize
      file.layout.blockSize = .ok count := by
    rw [← hbase.layout]
    exact h.count_eq
  have hexpected : (session.publication intent).expectedFileSize = session.baseSize := h.expected
  have htail : (session.publication intent).tailIndex file count =
      .ok (intent.start session count) := by
    unfold FilePublication.tailIndex CloseWriteIntent.start
    rw [hexpected, ← hbase.layout]
    rw [session.publication_mode intent]
    cases hmode : session.mode with
    | overwrite => rfl
    | append =>
      simp only [reduceCtorEq, if_false]
      show (if intent.finalSize < session.baseSize then _ else
        if intent.committedBlocks = [] ∧ intent.finalSize = session.baseSize then _ else _) = _
      rw [if_neg (not_lt.2 (h.grows hmode))]
      by_cases hnothing : intent.committedBlocks = [] ∧ intent.finalSize = session.baseSize
      · rw [if_pos hnothing, if_pos hnothing.symm]
      · rw [if_neg hnothing, if_neg fun hboth => hnothing hboth.symm]
  unfold FilePublication.startIndex
  simp only [hcount, htail]
  rw [if_neg, if_neg]
  · rw [Bool.not_eq_true', Bool.not_eq_false]
    apply blockLensMatch_of_lens
    intro index block hblock
    rw [← hbase.layout]
    exact (h.fits index block hblock).len
  · rw [not_or, not_not, not_lt]
    exact ⟨h.start_le, h.length_eq⟩

theorem WriteSession.BasedOn.blocks_length (hbase : session.BasedOn file) {inodeId : InodeId}
    (hvalid : file.validate inodeId = .ok ()) :
    file.blocks.length = requiredBlocks session.baseSize session.layout.blockSize := by
  obtain ⟨-, hcount, -⟩ := validate_eq_ok_iff.1 hvalid
  rw [hbase.size, hbase.layout]
  exact (blockCount_eq_ok hcount).2

theorem FileData.requiredBlocks_of_mul_lt {len capacity ordinal : ℕ} (hcapacity : 0 < capacity)
    (hordinal : len / capacity ≤ ordinal) (hinside : ordinal * capacity < len) :
    ordinal = len / capacity ∧ len % capacity ≠ 0 ∧
      FileData.requiredBlocks len capacity = ordinal + 1 := by
  have hle : ordinal ≤ len / capacity := (Nat.le_div_iff_mul_le hcapacity).2 hinside.le
  have hsame : ordinal = len / capacity := le_antisymm hle hordinal
  subst hsame
  have hmod := Nat.div_add_mod' len capacity
  refine ⟨rfl, by omega, ?_⟩
  unfold requiredBlocks
  rw [if_neg (by omega)]
  congr 1
  have hfirst : len - 1 = len % capacity - 1 + len / capacity * capacity := by omega
  have hlt := Nat.mod_lt len hcapacity
  rw [hfirst, Nat.add_mul_div_right _ _ hcapacity, Nat.div_eq_of_lt (by omega), Nat.zero_add]

theorem CloseWriteIntent.start_of_append (count : ℕ) (hmode : session.mode = .append)
    (hsome : ¬(intent.committedBlocks = [] ∧ intent.finalSize = session.baseSize)) :
    intent.start session count = session.baseSize / session.layout.blockSize := by
  unfold start
  rw [if_neg (by rw [hmode]; decide), if_neg fun hboth => hsome hboth.symm]

structure WriteSession.FreshTargets (session : WriteSession) (file : FileData) : Prop where
  new : ∀ target ∈ session.issuedTargets,
    session.mode = .overwrite ∨ session.baseSize ≤ target.fileOffset →
      target.blockId.inodeId = session.inodeId ∧ target.blockId.index < file.nextIndex ∧
        target.blockId ∉ file.blocks
  tail : session.mode = .append → session.baseSize % session.layout.blockSize ≠ 0 →
    ∀ target ∈ session.issuedTargets,
      target.fileOffset = session.baseSize / session.layout.blockSize *
        session.layout.blockSize → file.blocks.getLast? = some target.blockId

namespace CloseWriteIntent.Accepted

variable (h : intent.Accepted session count) (hbase : session.BasedOn file)
  (hvalid : file.validate session.inodeId = .ok ()) (hfresh : session.FreshTargets file)
  {block : CommittedBlock}

include h hfresh in
theorem new_of_outside {index : ℕ} (hblock : intent.committedBlocks[index]? = some block)
    (houtside : session.mode = .overwrite ∨ session.baseSize ≤
      (intent.start session count + index) * session.layout.blockSize) :
    block.blockId.inodeId = session.inodeId ∧ block.blockId.index < file.nextIndex ∧
      block.blockId ∉ file.blocks := by
  obtain ⟨target, htarget, hid, hoffset⟩ := (h.fits index block hblock).issued
  rw [← hid]
  apply hfresh.new target htarget
  rw [hoffset]
  exact houtside

include h hbase hvalid hfresh in
theorem tail_of_inside {index : ℕ}
    (hblock : intent.committedBlocks[index]? = some block) (hmode : session.mode = .append)
    (hinside : (intent.start session count + index) * session.layout.blockSize < session.baseSize) :
    index = 0 ∧ file.blocks = file.blocks.take (intent.start session count) ++ [block.blockId] := by
  obtain ⟨hcapacity, -⟩ := blockCount_eq_ok h.count_eq
  have hsome : intent.committedBlocks ≠ [] := ne_nil_of_mem (mem_of_getElem? hblock)
  have hstart := start_of_append count hmode fun hnone => hsome hnone.1
  obtain ⟨hsame, hrest, hlength⟩ := requiredBlocks_of_mul_lt hcapacity (by omega) hinside
  rw [← hbase.blocks_length hvalid] at hlength
  obtain ⟨target, htarget, hid, hoffset⟩ := (h.fits index block hblock).issued
  rw [hsame] at hoffset
  have hlast := hfresh.tail hmode hrest target htarget hoffset
  have hindex : index = 0 := by omega
  refine ⟨hindex, ?_⟩
  have hsplit := dropLast_append_getLast? _ hlast
  rw [dropLast_eq_take, hlength, hindex, Nat.add_zero, Nat.add_sub_cancel, hid] at hsplit
  exact hsplit.symm

include h hbase hvalid hfresh in
theorem block_owned (hblock : block ∈ intent.committedBlocks) :
    block.blockId.inodeId = session.inodeId ∧ block.blockId.index < file.nextIndex ∧
      block.blockId ∉ file.blocks.take (intent.start session count) ∧
      (session.mode = .overwrite → block.blockId ∉ file.blocks) := by
  obtain ⟨index, hindex⟩ := mem_iff_getElem?.1 hblock
  have hshape := wellShaped hvalid
  by_cases houtside : session.mode = .overwrite ∨ session.baseSize ≤
      (intent.start session count + index) * session.layout.blockSize
  · obtain ⟨hinode, hallocated, hnew⟩ := h.new_of_outside hfresh hindex houtside
    exact ⟨hinode, hallocated, fun hkept => hnew (mem_of_mem_take hkept), fun _ => hnew⟩
  · obtain ⟨hnot, hinside⟩ := not_or.1 houtside
    have hmode : session.mode = .append := by
      cases hmode : session.mode with
      | overwrite => exact absurd hmode hnot
      | append => rfl
    obtain ⟨-, hsplit⟩ := h.tail_of_inside hbase hvalid hfresh hindex hmode (not_le.1 hinside)
    have hvisible : block.blockId ∈ file.blocks := by
      rw [hsplit]
      exact mem_append_right _ mem_cons_self
    refine ⟨hshape.block_owned _ hvisible, hshape.block_allocated _ hvisible, ?_,
      fun hoverwrite => absurd hoverwrite hnot⟩
    have hnodup := hshape.blocks_nodup
    rw [hsplit] at hnodup
    intro hkept
    exact (nodup_append.1 hnodup).2.2 _ hkept _ mem_cons_self rfl

include h hbase hvalid hfresh in
theorem keptBlocks : (session.publication intent).keptBlocks file (intent.start session count) =
      .ok (file.blocks.take (intent.start session count)) := by
  have hlength := hbase.blocks_length hvalid
  obtain ⟨hcapacity, hcount⟩ := blockCount_eq_ok h.count_eq
  have hexpected : file.len = intent.expectedFileSize := by
    rw [h.expected, hbase.size]
  unfold FilePublication.keptBlocks
  rw [session.publication_mode intent]
  cases hmode : session.mode with
  | overwrite =>
    have hstart : intent.start session count = 0 := if_pos hmode
    rw [hstart]
    rfl
  | append =>
    have hgrows := h.grows hmode
    have hcovers : session.baseSize ≤ _ := le_requiredBlocks_mul hcapacity
    by_cases hnothing : intent.committedBlocks = [] ∧ intent.finalSize = session.baseSize
    · have hstart : intent.start session count = file.blocks.length := by
        unfold start
        rw [if_neg (by rw [hmode]; decide), if_pos hnothing.symm, hcount, hnothing.2,
          hlength]
      simp only [hstart, lt_irrefl, false_and, or_false, if_false]
      exact if_neg (not_not_intro hexpected)
    · have hstart := start_of_append count hmode hnothing
      have hle : intent.start session count ≤ file.blocks.length := by
        rw [hstart, hlength]
        exact Nat.div_le_of_le_mul (by rwa [Nat.mul_comm] at hcovers)
      change (if file.len ≠ intent.expectedFileSize ∨
          intent.start session count > file.blocks.length then _ else
        if intent.start session count < file.blocks.length ∧ _ then _ else _) = _
      rw [if_neg (not_or.2 ⟨not_not_intro hexpected, not_lt.2 hle⟩), if_neg]
      rintro ⟨hrest, hhead⟩
      apply hhead
      have hinside : intent.start session count * session.layout.blockSize <
          session.baseSize := mul_lt_of_lt_requiredBlocks (hlength ▸ hrest)
      cases hblocks : intent.committedBlocks with
      | nil =>
        have hend : intent.finalSize ≤ _ := le_requiredBlocks_mul hcapacity
        have hcount' : count = intent.start session count := by
          have hempty := h.length_eq
          have hstartLe := h.start_le
          rw [hblocks, length_nil] at hempty
          omega
        rw [← hcount, hcount'] at hend
        omega
      | cons block =>
        have hfirst : intent.committedBlocks[0]? = some block := by rw [hblocks]; rfl
        obtain ⟨-, hsplit⟩ := h.tail_of_inside hbase hvalid hfresh hfirst hmode hinside
        change intent.committedBlocks.head?.map blockId = _
        rw [hblocks, hsplit, getElem?_append_right (by rw [length_take]; omega),
          length_take, min_eq_left hle, Nat.sub_self]
        rfl

include h hbase hvalid hfresh in
theorem mergedBlocks : (session.publication intent).mergedBlocks session.inodeId file =
      .ok (file.blocks.take (intent.start session count) ++
        intent.committedBlocks.map blockId) := by
  unfold FilePublication.mergedBlocks
  simp only [hvalid, h.startIndex hbase, h.keptBlocks hbase hvalid hfresh]
  apply appendBlocks_of_new
  · intro block hblock
    obtain ⟨hinode, hindex, -, hreplaced⟩ := h.block_owned hbase hvalid hfresh hblock
    refine ⟨hinode, hindex, fun hmode => hreplaced ?_⟩
    change publishModeForSession session = .replaceIfUnchanged at hmode
    unfold publishModeForSession at hmode
    cases hsession : session.mode with
    | overwrite => rfl
    | append =>
      rw [hsession] at hmode
      cases hmode
  · refine nodup_append.2 ⟨?_, h.distinct, ?_⟩
    · exact (wellShaped hvalid).blocks_nodup.sublist (take_sublist _ _)
    · rintro kept hkept _ hpublished rfl
      obtain ⟨block, hblock, rfl⟩ := mem_map.1 hpublished
      exact (h.block_owned hbase hvalid hfresh hblock).2.2.1 hkept

include h hbase hvalid hfresh in
theorem prepared {inode : Inode} (hid : inode.inodeId = session.inodeId)
    (hkind : inode.kind = .file file) (hgeneration : file.generation + 1 < 2 ^ 64)
    (proposedAtMs : ℕ) :
    ∃ prepared, prepareFilePublication inode (session.publication intent) proposedAtMs =
        .ok prepared ∧ prepared.inode.inodeId = session.inodeId ∧
      (prepared.changed = false → prepared.inode = inode) ∧
      ∃ file', prepared.inode.kind = .file file' ∧ file'.len = intent.finalSize ∧
        file'.blocks = file.blocks.take (intent.start session count) ++
          intent.committedBlocks.map blockId := by
  have hepoch : file.leaseEpoch = (session.publication intent).leaseEpoch := hbase.epoch.symm
  have hexpected : file.generation = (session.publication intent).expectedGeneration :=
    hbase.generation.symm
  have hsize : file.len = (session.publication intent).expectedFileSize := by
    rw [← hbase.size]
    exact h.expected.symm
  have hnext : checkedNext file.generation = some (file.generation + 1) :=
    checkedAddU64_of_lt hgeneration
  unfold prepareFilePublication
  simp only [Inode.file_eq_ok.2 hkind]
  rw [if_neg (not_not_intro hepoch)]
  unfold matchesVisible
  simp only [h.startIndex hbase]
  rw [if_neg, if_neg (not_or.2 ⟨not_not_intro hexpected, not_not_intro hsize⟩)]
  · split
    next hvisible =>
      refine ⟨_, rfl, hid, fun _ => rfl, file, hkind, ?_⟩
      simp only [suffixVisible, Bool.and_eq_true, decide_eq_true_eq] at hvisible
      obtain ⟨⟨hlen, -⟩, hsuffix⟩ := hvisible
      refine ⟨hlen, ?_⟩
      have hsplit := take_append_drop (intent.start session count) file.blocks
      rw [hsuffix] at hsplit
      exact hsplit.symm
    next =>
      rw [hid, h.mergedBlocks hbase hvalid hfresh]
      simp only [hnext]
      refine ⟨_, rfl, hid, fun hsame => ?_, _, rfl, rfl, rfl⟩
      cases hsame
  · rintro ⟨hafter, -⟩
    rw [← hexpected, hnext] at hafter
    exact absurd (Option.some.inj hafter) (Nat.succ_ne_self _)

end CloseWriteIntent.Accepted

end Agreement

/-! ## Applying accepted payloads -/

def Store.ShowsFile (s : Store) (i : InodeId) (len : ℕ) (blocks : List BlockId) : Prop :=
  ∃ inode file, s.inode i = some inode ∧ inode.kind = .file file ∧ file.len = len ∧
    file.blocks = blocks

theorem WriteSession.TargetsAllocated.fresh {session : WriteSession} {past : Past} {s : Store}
    {inode : Inode} {file : FileData} (h : session.TargetsAllocated past file)
    (hrun : Reached past s) (hinode : s.inode session.inodeId = some inode)
    (hkind : inode.kind = .file file) (hbase : session.BasedOn file) : session.FreshTargets file :=
  ⟨fun target htarget houtside =>
    (h.new target htarget houtside).fresh hrun hinode hkind hbase.generation, h.tail⟩

section

variable {db : Db} {i : InodeId} {inode : Inode} {file : FileData}
  {publication : FilePublication} {proposedAtMs : ℕ} {prepared : PreparedPublication}
  {raftState : AppMetadataRaftState}

theorem ofResult_run {α : Type} {result : MetadataResult α} {value : α}
    (h : result = .ok value) : ofResult result db = (.ok value, db) := by
  rw [h]
  rfl

theorem putInodeAtomic_healthy (h : db.env.Healthy) (inode : Inode) :
    putInodeAtomic inode raftState db = (.ok (), db.commit [.putInode inode] raftState) := by
  simp [putInodeAtomic, batchPutInode, encode, query_healthy h, bind, pure,
    commitAuthorityBatch_healthy h]

theorem applyPublishFile_of_prepared (h : db.env.Healthy) (hfile : FileAt db.store i inode file)
    (hprepared : prepareFilePublication inode publication proposedAtMs = .ok prepared)
    (hsame : prepared.changed = false → prepared.inode = inode) (hid : prepared.inode.inodeId = i) :
    ∃ db', applyPublishFile i publication proposedAtMs raftState db =
      (.ok prepared.generation, db') ∧ db'.store.inode i = some prepared.inode := by
  unfold applyPublishFile
  rw [bind_of_ok (loadFileInode_healthy h hfile), bind_of_ok (ofResult_run hprepared)]
  cases hchanged : prepared.changed with
  | true =>
    rw [if_pos rfl, bind_of_ok (putInodeAtomic_healthy h prepared.inode)]
    exact ⟨_, rfl, Store.inode_applyBatch_putInode hid⟩
  | false =>
    rw [if_neg nofun]
    unfold commitAppliedState
    rw [bind_of_ok (commitAuthorityBatch_healthy h), hsame hchanged]
    exact ⟨_, rfl, hfile.inode_eq⟩

theorem applyCommitFile_of_prepared (h : db.env.Healthy) (hfile : FileAt db.store i inode file)
    {clientId : ClientId} {callId : CallId} (hnew : ∀ commit, file.lastCommit = some commit →
      commit.clientId ≠ clientId ∨ commit.callId ≠ callId)
    (hgeneration : file.generation = publication.expectedGeneration)
    (hepoch : publication.leaseEpoch + 1 < 2 ^ 64)
    (hprepared : prepareFilePublication inode publication proposedAtMs = .ok prepared)
    (hid : prepared.inode.inodeId = i) {file' : FileData}
    (hkind : prepared.inode.kind = .file file') :
    ∃ db' inode', applyCommitFile i clientId callId publication proposedAtMs raftState db =
      (.ok prepared.generation, db') ∧ db'.store.inode i = some inode' ∧
        inode'.kind = .file { file' with
          leaseEpoch := publication.leaseEpoch + 1
          lastCommit := some (publication.evidence clientId callId prepared.generation) } := by
  have hresolve : publication.resolveCommit inode clientId callId = .ok none := by
    unfold resolveCommit
    simp only [Inode.file_eq_ok.2 hfile.kind_eq]
    cases hcommit : file.lastCommit with
    | none => rfl
    | some commit => exact if_pos (hnew commit hcommit)
  have hended : checkedNext publication.leaseEpoch = some (publication.leaseEpoch + 1) :=
    checkedAddU64_of_lt hepoch
  unfold applyCommitFile
  rw [bind_of_ok (loadFileInode_healthy h hfile), bind_of_ok (ofResult_run hresolve)]
  dsimp only
  rw [bind_of_ok (ofResult_run (Inode.file_eq_ok.2 hfile.kind_eq))]
  have hcurrent : (rejectIf (file.generation ≠ publication.expectedGeneration)
      (.again "CommitFile generation changed without completion evidence") : StorageM Unit) db =
        (.ok (), db) := by
    unfold rejectIf failIf
    rw [if_neg (not_not_intro hgeneration)]
    rfl
  have hepochs : (okOrElse (checkedNext publication.leaseEpoch)
      (.invalidArgument "write lease epoch overflow") : StorageM ℕ) db =
        (.ok (publication.leaseEpoch + 1), db) := by
    rw [hended]
    rfl
  rw [bind_of_ok hcurrent, bind_of_ok hepochs, bind_of_ok (ofResult_run hprepared),
    bind_of_ok (ofResult_run (Inode.file_eq_ok.2 hkind)), bind_of_ok (putInodeAtomic_healthy h _)]
  exact ⟨_, _, rfl, Store.inode_applyBatch_putInode hid, rfl⟩

end

/-- On the inode that a session is based on, the state machine accepts every payload that
the leader accepts, and shows it behind the blocks it did not touch. -/
theorem accepted_payload_is_applied {past : Past} {db : Db} (hrun : Reached past db.store)
    (hhealthy : db.env.Healthy) {session : WriteSession} {inode : Inode} {file : FileData}
    (hinode : db.store.inode session.inodeId = some inode) (hkind : inode.kind = .file file)
    (hbase : session.BasedOn file) (hallocated : session.TargetsAllocated past file)
    {intent : CloseWriteIntent} {blocks : List CommittedBlock}
    (haccepts : validateCommittedBlocks intent session = .ok blocks)
    (hgeneration : file.generation + 1 < 2 ^ 64) (proposedAtMs : ℕ)
    (raftState : AppMetadataRaftState) :
    ∃ count, FileData.blockCount intent.finalSize session.layout.blockSize = .ok count ∧
      (∃ generation db',
        applyPublishFile session.inodeId (session.publication intent) proposedAtMs raftState db =
          (.ok generation, db') ∧ db'.store.ShowsFile session.inodeId intent.finalSize
          (file.blocks.take (intent.start session count) ++ blocks.map CommittedBlock.blockId)) ∧
      ∀ clientId callId, (∀ commit, file.lastCommit = some commit →
          commit.clientId ≠ clientId ∨ commit.callId ≠ callId) → file.leaseEpoch + 1 < 2 ^ 64 →
        ∃ generation db',
          applyCommitFile session.inodeId clientId callId (session.publication intent)
            proposedAtMs raftState db = (.ok generation, db') ∧
          db'.store.ShowsFile session.inodeId intent.finalSize
            (file.blocks.take (intent.start session count) ++
              blocks.map CommittedBlock.blockId) := by
  obtain ⟨rfl, count, haccepted⟩ := validateCommittedBlocks_ok haccepts
  have hfile : FileAt db.store session.inodeId inode file :=
    ⟨hinode, (keyed hrun).inodeId_eq hinode, hkind, (filesSound hrun).validate_eq hinode hkind⟩
  have hfresh := hallocated.fresh hrun hinode hkind hbase
  obtain ⟨prepared, hprepared, hid, hsame, file', hkind', hlen, hblocks⟩ :=
    haccepted.prepared hbase hfile.valid hfresh hfile.id_eq hkind hgeneration proposedAtMs
  refine ⟨count, haccepted.count_eq, ?_, ?_⟩
  · obtain ⟨db', hpublish, hstored⟩ :=
      applyPublishFile_of_prepared hhealthy hfile hprepared hsame hid
    exact ⟨_, db', hpublish, _, _, hstored, hkind', hlen, hblocks⟩
  · intro clientId callId hnew hepoch
    have hepoch' : (session.publication intent).leaseEpoch + 1 < 2 ^ 64 := by
      change session.leaseEpoch + 1 < 2 ^ 64
      rw [hbase.epoch]
      exact hepoch
    obtain ⟨db', inode', hcommit, hstored, hkind''⟩ := applyCommitFile_of_prepared hhealthy hfile
      hnew hbase.generation.symm hepoch' hprepared hid hkind'
    exact ⟨_, db', hcommit, _, _, hstored, hkind'', hlen, hblocks⟩

/-! ### A partial tail that grows -/

/-- A file of three bytes, reopened, with a second block allocated. -/
def tailLog : List Command :=
  .allocateBlock 2 3 :: .acquireWriteLease 30 2 2 :: sampleLog

def tailTarget (index : BlockIndex) : LocatedBlock where
  blockId := ⟨2, index⟩
  fileOffset := index * 4
  blockSize := 4
  workerEndpoints := []
  fencingToken := ⟨⟨2, index⟩, 7, 3⟩
  writeOffset := 0
  chunkSize := durablePrefixStorageChunkSize
  blockFormatId := .durablePrefix
  tier := .mem

def tailSession : WriteSession where
  inodeId := 2
  mountId := 1
  leaseEpoch := 3
  baseSize := 3
  generation := 1
  mode := .append
  openClientId := 7
  layout := sampleLayout
  expiresAtMs := 100
  ancestorInodeIds := [1, 2]
  issuedTargets := [tailTarget 0, tailTarget 1]
  issuedSteps := ∅
  pendingAllocateBlock := none
  activePublication := none
  publicationSubmitted := false
  createReplay := none

def tailIntent : CloseWriteIntent := ⟨[⟨⟨2, 0⟩, 4⟩, ⟨⟨2, 1⟩, 2⟩], 6, 3⟩

theorem tailSession_allocated {file : FileData} (hfile : file.blocks = [⟨2, 0⟩]) :
    tailSession.TargetsAllocated (healthyRun .empty tailLog).1 file := by
  constructor
  · intro target htarget houtside
    simp only [tailSession, mem_cons, not_mem_nil, or_false] at htarget
    rcases htarget with rfl | rfl
    · exact absurd houtside (by decide)
    · exact ⟨_, mem_cons_self, 3, _, _, rfl, rfl, rfl, rfl, rfl⟩
  · intro _ _ target htarget hoffset
    simp only [tailSession, mem_cons, not_mem_nil, or_false] at htarget
    rcases htarget with rfl | rfl
    · rw [hfile]
      rfl
    · exact absurd hoffset (by decide)

theorem accepted_payload_is_applied_tailLog :
    let s := (healthyRun .empty tailLog).2
    validateCommittedBlocks tailIntent tailSession = .ok tailIntent.committedBlocks ∧
      (∃ generation db', applyPublishFile 2 (tailSession.publication tailIntent) 40 .initial
          (.healthy s) = (.ok generation, db') ∧ db'.store.ShowsFile 2 6 [⟨2, 0⟩, ⟨2, 1⟩]) ∧
      ∃ generation db', applyCommitFile 2 7 3 (tailSession.publication tailIntent) 40 .initial
          (.healthy s) = (.ok generation, db') ∧
        db'.store.ShowsFile 2 6 [⟨2, 0⟩, ⟨2, 1⟩] := by
  intro s
  have hrun : Reached (healthyRun .empty tailLog).1 (Db.healthy s).store :=
    Reached.healthyRun tailLog
  have hinode : (Db.healthy s).store.inode tailSession.inodeId = some _ := rfl
  have haccepts : validateCommittedBlocks tailIntent tailSession =
      .ok tailIntent.committedBlocks := rfl
  obtain ⟨count, hcount, hpublish, hcommit⟩ := accepted_payload_is_applied hrun (fun _ => rfl)
    hinode rfl ⟨rfl, rfl, rfl, rfl⟩ (tailSession_allocated rfl) haccepts (by decide) 40 .initial
  cases hcount
  exact ⟨haccepts, hpublish, hcommit 7 3 (by rintro commit ⟨⟩; decide) (by decide)⟩

/-- A commit under the operation of the last commit is refused, whatever it publishes. -/
theorem repeated_operation_is_refused :
    let s := (healthyRun .empty tailLog).2
    validateCommittedBlocks tailIntent tailSession = .ok tailIntent.committedBlocks ∧
      (∃ inode file, s.inode 2 = some inode ∧ inode.kind = .file file ∧ tailSession.BasedOn file ∧
        tailSession.TargetsAllocated (healthyRun .empty tailLog).1 file) ∧
      (applyCommitFile 2 7 2 (tailSession.publication tailIntent) 40 .initial
        (.healthy s)).1 = .error (.failed payloadChanged) := by
  intro s
  exact ⟨rfl, ⟨_, _, rfl, rfl, ⟨rfl, rfl, rfl, rfl⟩, tailSession_allocated rfl⟩, rfl⟩

end Beryl
