import Beryl.WriteSpec
import Mathlib.Algebra.Order.Floor.Div

/-!
# File contents over time

How one version of an inode may follow another, and what a publication does to
the blocks of a file.  Length, blocks and allocation cursor are tied together by
`FileData.validate`; the lease epoch, the generation, the cursor and the
modification time only grow.
-/

namespace Beryl

open FileData FilePublication CommittedBlock List

/-! ## Well-shaped files -/

theorem blockIdentitiesValid_iff (inodeId : InodeId) (nextIndex : ℕ) (blocks : List BlockId) :
    ∀ seen, blockIdentitiesValid inodeId nextIndex seen blocks = true ↔
      (∀ block ∈ blocks, block.inodeId = inodeId ∧ block.index < nextIndex) ∧
      blocks.Nodup ∧ ∀ block ∈ blocks, block ∉ seen := by
  induction blocks with
  | nil => simp [blockIdentitiesValid]
  | cons block rest ih =>
    intro seen
    unfold blockIdentitiesValid
    split
    next hbad =>
      simp only [Bool.false_eq_true, false_iff]
      rintro ⟨hids, _, hseen⟩
      have hid := hids block mem_cons_self
      rcases hbad with h | h | h
      · exact h hid.1
      · exact absurd hid.2 (not_lt.2 h)
      · exact hseen block mem_cons_self h
    next hgood =>
      simp only [not_or, not_not, not_le] at hgood
      rw [ih, nodup_cons]
      constructor
      · rintro ⟨hids, hnodup, hseen⟩
        refine ⟨forall_mem_cons.2 ⟨⟨hgood.1, hgood.2.1⟩, hids⟩,
          ⟨fun h => hseen block h mem_cons_self, hnodup⟩,
          forall_mem_cons.2 ⟨hgood.2.2, fun b hb hmem => ?_⟩⟩
        exact hseen b hb (mem_cons_of_mem _ hmem)
      · rintro ⟨hids, ⟨hnew, hnodup⟩, hseen⟩
        refine ⟨(forall_mem_cons.1 hids).2, hnodup, fun b hb hmem => ?_⟩
        rcases mem_cons.1 hmem with rfl | hmem
        · exact hnew hb
        · exact hseen b (mem_cons_of_mem _ hb) hmem

variable {file : FileData} {inodeId : InodeId} {publication : FilePublication} {start : ℕ}
  {inode old new : Inode}

theorem FileData.validate_eq_ok_iff : file.validate inodeId = .ok () ↔
      file.layout.validate = .ok () ∧
      FileData.blockCount file.len file.layout.blockSize = .ok file.blocks.length ∧
      (∀ block ∈ file.blocks, block.inodeId = inodeId ∧ block.index < file.nextIndex) ∧
      file.blocks.Nodup := by
  have hids := blockIdentitiesValid_iff inodeId file.nextIndex file.blocks []
  simp only [not_mem_nil, not_false_eq_true, implies_true, and_true] at hids
  rw [← hids]
  unfold validate
  cases file.layout.validate with
  | error => simp
  | ok =>
    cases hcount : blockCount file.len file.layout.blockSize with
    | error => simp
    | ok =>
      simp only [true_and, Except.ok.injEq]
      split
      next hne =>
        simp only [reduceCtorEq, false_iff, not_and]
        exact fun heq => absurd heq.symm hne
      next heq =>
        rw [not_not] at heq
        cases hvalid : blockIdentitiesValid inodeId file.nextIndex [] file.blocks with
        | true => simp [heq]
        | false => simp

structure FileData.WellShaped (file : FileData) (inodeId : InodeId) : Prop where
  count_eq : file.blocks.length = file.len ⌈/⌉ file.layout.blockSize
  block_owned : ∀ block ∈ file.blocks, block.inodeId = inodeId
  block_allocated : ∀ block ∈ file.blocks, block.index < file.nextIndex
  blocks_nodup : file.blocks.Nodup

theorem FileData.requiredBlocks_eq {len capacity : ℕ} (hcapacity : 0 < capacity) :
    FileData.requiredBlocks len capacity = len ⌈/⌉ capacity := by
  unfold requiredBlocks
  rw [Nat.ceilDiv_eq_add_pred_div]
  split
  next hzero =>
    rw [hzero, Nat.zero_add]
    exact (Nat.div_eq_of_lt (by omega)).symm
  next hpos =>
    have hsum : len + capacity - 1 = (len - 1) + capacity := by omega
    rw [hsum, Nat.add_div_right _ hcapacity]

theorem FileData.wellShaped (h : file.validate inodeId = .ok ()) : file.WellShaped inodeId := by
  obtain ⟨_, hcount, hids, hnodup⟩ := validate_eq_ok_iff.1 h
  refine ⟨?_, fun b hb => (hids b hb).1, fun b hb => (hids b hb).2, hnodup⟩
  unfold blockCount at hcount
  split at hcount
  · cases hcount
  next hcapacity =>
    split at hcount
    · cases hcount
    · rw [← Except.ok.inj hcount, requiredBlocks_eq (Nat.pos_of_ne_zero hcapacity)]

/-! ## Merging a publication -/

theorem appendBlocks_ok {mode : PublishMode} (published : List CommittedBlock) :
    ∀ {blocks result}, FilePublication.appendBlocks inodeId file mode blocks published =
      .ok result → blocks.Nodup →
    (∀ block ∈ blocks, block.inodeId = inodeId ∧ block.index < file.nextIndex) →
    result = blocks ++ published.map blockId ∧ result.Nodup ∧
      ∀ block ∈ result, block.inodeId = inodeId ∧ block.index < file.nextIndex := by
  induction published with
  | nil =>
    intro blocks result h hnodup hids
    cases h
    exact ⟨by simp, hnodup, hids⟩
  | cons block rest ih =>
    intro blocks result h hnodup hids
    unfold appendBlocks at h
    split at h
    · cases h
    next hgood =>
      simp only [not_or, not_not, not_le] at hgood
      split at h
      · cases h
      · obtain ⟨happend, hresult⟩ := ih h
          (nodup_append.2 ⟨hnodup, nodup_singleton _, by
            rintro a ha b hb rfl
            rw [mem_singleton.1 hb] at ha
            exact hgood.2.2 ha⟩)
          (by
            intro b hb
            rcases mem_append.1 hb with hb | hb
            · exact hids b hb
            · rw [mem_singleton.1 hb]
              exact ⟨hgood.1, hgood.2.1⟩)
        refine ⟨?_, hresult⟩
        rw [happend, append_assoc, map_cons, singleton_append]

theorem keptBlocks_ok {kept : List BlockId} (hstart : publication.startIndex file = .ok start)
    (hkept : publication.keptBlocks file start = .ok kept) :
    kept.length = start ∧ kept <+: file.blocks := by
  unfold keptBlocks at hkept
  cases hmode : publication.mode with
  | replaceIfUnchanged =>
    rw [hmode] at hkept
    cases hkept
    refine ⟨?_, List.nil_prefix⟩
    unfold FilePublication.startIndex tailIndex at hstart
    rw [hmode] at hstart
    split at hstart
    · cases hstart
    · simp only at hstart
      split at hstart
      · cases hstart
      · split at hstart
        · cases hstart
        · exact (Except.ok.inj hstart)
  | appendIfUnchanged =>
    rw [hmode] at hkept
    simp only at hkept
    split at hkept
    · cases hkept
    next hbase =>
      split at hkept
      · cases hkept
      · cases hkept
        simp only [not_or, not_lt] at hbase
        exact ⟨List.length_take_of_le hbase.2, List.take_prefix _ _⟩

theorem startIndex_ok (h : publication.startIndex file = .ok start) :
    FileData.blockCount publication.targetSize file.layout.blockSize =
      .ok (start + publication.blocks.length) := by
  unfold FilePublication.startIndex at h
  split at h
  · cases h
  next count hcount =>
    split at h
    · cases h
    next tail htail =>
      split at h
      · cases h
      next hcover =>
        split at h
        · cases h
        · cases h
          rw [hcount]
          congr 1
          omega

variable {blocks : List BlockId}

theorem mergedBlocks_ok (h : publication.mergedBlocks inodeId file = .ok blocks) :
    blockCount publication.targetSize file.layout.blockSize = .ok blocks.length ∧ blocks.Nodup ∧
    (∀ block ∈ blocks, block.inodeId = inodeId ∧ block.index < file.nextIndex) ∧
    ∃ start, publication.startIndex file = .ok start ∧ start ≤ blocks.length ∧
      blocks.drop start = publication.blocks.map blockId := by
  unfold mergedBlocks at h
  split at h
  · cases h
  next hvalid =>
    obtain ⟨_, _, hids, hnodup⟩ := validate_eq_ok_iff.1 hvalid
    split at h
    · cases h
    next start hstart =>
      split at h
      · cases h
      next kept hkept =>
        obtain ⟨hlength, hkeptPrefix⟩ := keptBlocks_ok hstart hkept
        obtain ⟨rfl, hnodup', hids'⟩ := appendBlocks_ok publication.blocks h
          (hnodup.sublist hkeptPrefix.sublist)
          (fun block hblock => hids block (hkeptPrefix.subset hblock))
        refine ⟨?_, hnodup', hids', start, hstart, ?_, ?_⟩
        · rw [startIndex_ok hstart, length_append, length_map, hlength]
        · rw [length_append, hlength]
          exact Nat.le_add_right _ _
        · rw [← hlength, drop_left]

theorem startIndex_parts (h : publication.startIndex file = .ok start) :
    FileData.requiredBlocks publication.targetSize file.layout.blockSize =
        start + publication.blocks.length ∧
      FileData.requiredBlocks publication.targetSize file.layout.blockSize ≤ maxFileBlocks ∧
      publication.tailIndex file (start + publication.blocks.length) = .ok start ∧
      FilePublication.blockLensMatch publication.targetSize file.layout.blockSize start
        publication.blocks = true := by
  have hcount := startIndex_ok h
  unfold FilePublication.startIndex at h
  rw [hcount] at h
  simp only at h
  split at h
  · cases h
  next tail htail =>
    split at h
    · cases h
    · split at h
      · cases h
      next hlens =>
        cases h
        have hlens' : blockLensMatch publication.targetSize
            file.layout.blockSize start publication.blocks = true := by
          simpa using hlens
        unfold blockCount at hcount
        split at hcount
        · cases hcount
        · split at hcount
          · cases hcount
          next hlimit =>
            have hblocks := Except.ok.inj hcount
            exact ⟨hblocks, not_lt.1 hlimit, htail, hlens'⟩

theorem mergedBlocks_parts (h : publication.mergedBlocks inodeId file = .ok blocks) :
    ∃ start, publication.startIndex file = .ok start ∧ start ≤ file.blocks.length ∧
      blocks = file.blocks.take start ++ publication.blocks.map blockId ∧
      (publication.mode = .appendIfUnchanged → file.len = publication.expectedFileSize) := by
  unfold mergedBlocks at h
  split at h
  · cases h
  next hvalid =>
    obtain ⟨_, _, hids, hnodup⟩ := validate_eq_ok_iff.1 hvalid
    split at h
    · cases h
    next start hstart =>
      split at h
      · cases h
      next kept hkept =>
        obtain ⟨hlength, hbegins⟩ := keptBlocks_ok hstart hkept
        have hparts := (appendBlocks_ok publication.blocks h (hnodup.sublist hbegins.sublist)
          (fun block hblock => hids block (hbegins.subset hblock))).1
        have htake : file.blocks.take start = kept := by
          rw [← hlength]
          exact (prefix_iff_eq_take.1 hbegins).symm
        refine ⟨start, hstart, ?_, by rw [htake, hparts], ?_⟩
        · rw [← hlength]
          exact hbegins.length_le
        · intro hmode
          unfold keptBlocks at hkept
          rw [hmode] at hkept
          simp only at hkept
          split at hkept
          · cases hkept
          next hbase =>
            simp only [not_or, not_not] at hbase
            exact hbase.1

/-- The two ways a publication is accepted: its content is already visible, or
it becomes the next generation. -/
inductive Published (inode : Inode) (publication : FilePublication)
    (proposedAtMs : ℕ) : PreparedPublication → Prop
  | visible {file : FileData} (hkind : inode.kind = .file file)
      (hepoch : file.leaseEpoch = publication.leaseEpoch)
      (hvisible : publication.matchesVisible file = .ok true) :
      Published inode publication proposedAtMs ⟨inode, file.generation, false⟩
  | replaced {file : FileData} {blocks : List BlockId}
      (hkind : inode.kind = .file file)
      (hepoch : file.leaseEpoch = publication.leaseEpoch)
      (hmerged : publication.mergedBlocks inode.inodeId file = .ok blocks) :
      Published inode publication proposedAtMs
        ⟨{ inode with
            kind := .file { file with
              blocks, len := publication.targetSize,
              generation := file.generation + 1, lastCommit := none }
            attrs := inode.attrs.setModifyTime proposedAtMs },
          file.generation + 1, true⟩

theorem prepareFilePublication_ok {proposedAtMs : ℕ} {prepared : PreparedPublication}
    (h : prepareFilePublication inode publication proposedAtMs = .ok prepared) :
    Published inode publication proposedAtMs prepared := by
  unfold prepareFilePublication at h
  split at h
  · cases h
  next file hfile =>
    have hkind := Inode.file_eq_ok.1 hfile
    split at h
    · cases h
    next hepoch =>
      have hepoch := not_not.1 hepoch
      split at h
      · cases h
      next isVisible hvisible =>
        split at h
        next hreplay =>
          cases h
          exact .visible hkind hepoch (hreplay.2 ▸ hvisible)
        next =>
          split at h
          · cases h
          · split at h
            next htrue =>
              cases h
              exact .visible hkind hepoch (htrue ▸ hvisible)
            next =>
              split at h
              · cases h
              next blocks hmerged =>
                split at h
                · cases h
                next generation hgeneration =>
                  obtain ⟨rfl, _⟩ := checkedAddU64_eq_some hgeneration
                  cases h
                  exact .replaced hkind hepoch hmerged

theorem matchesVisible_len (h : publication.matchesVisible file = .ok true) :
    file.len = publication.targetSize := by
  unfold matchesVisible at h
  split at h
  · cases h
  · have hsuffix := Except.ok.inj h
    simp only [suffixVisible, Bool.and_eq_true, decide_eq_true_eq] at hsuffix
    exact hsuffix.1.1

variable {generation : ContentGeneration} {clientId : ClientId} {callId : CallId}

/-- A commit is recognised as a replay exactly when the inode carries its
evidence and still shows its content. -/
theorem resolveCommit_some
    (h : publication.resolveCommit inode clientId callId = .ok (some generation)) :
    ∃ file, inode.kind = .file file ∧
      file.lastCommit = some (publication.evidence clientId callId generation) ∧
      publication.matchesVisible file = .ok true := by
  unfold resolveCommit at h
  split at h
  · cases h
  next file hfile =>
    refine ⟨file, Inode.file_eq_ok.1 hfile, ?_⟩
    split at h
    · cases h
    next commit hcommit =>
      split at h
      · cases h
      next hclient =>
        split at h
        · cases h
        · split at h
          · cases h
          next hpayload =>
            split at h
            · cases h
            · cases h
            next hvisible =>
              cases h
              simp only [not_or, not_not] at hclient
              simp only [FileCommit.payloadDiffers, Bool.not_eq_true, Bool.or_eq_false_iff,
                decide_eq_false_iff_not, ne_eq, not_not] at hpayload
              refine ⟨?_, hvisible⟩
              rw [hcommit]
              congr 1
              obtain ⟨⟨⟨⟨hepoch, hgeneration⟩, hsize⟩, hmode⟩, hcommitted⟩ := hpayload
              cases commit
              simp_all [evidence]

theorem resolveCommit_of_evidence (hkind : inode.kind = .file file)
    (hcommit : file.lastCommit = some (publication.evidence clientId callId generation))
    (hagrees : (publication.evidence clientId callId generation).Agrees file)
    (hvisible : publication.matchesVisible file = .ok true) :
    publication.resolveCommit inode clientId callId = .ok (some generation) := by
  unfold resolveCommit
  rw [Inode.file_eq_ok.2 hkind]
  simp only [hcommit]
  rw [if_neg (by simp [evidence]), hagrees.not_disagrees]
  simp [FileCommit.payloadDiffers, evidence, hvisible]

/-! ## Versions of an inode -/

/-- One version of a file may follow another: the layout is fixed, the counters
only grow, and within a generation the content is fixed. -/
structure FileData.Evolves (old new : FileData) : Prop where
  layout_eq : new.layout = old.layout
  epoch_le : old.leaseEpoch ≤ new.leaseEpoch
  generation_le : old.generation ≤ new.generation
  index_le : old.nextIndex ≤ new.nextIndex
  content_eq : new.generation = old.generation →
    new.blocks = old.blocks ∧ new.len = old.len

inductive InodeKind.Evolves : InodeKind → InodeKind → Prop
  | dir : InodeKind.Evolves .dir .dir
  | file {old new : FileData} (h : old.Evolves new) :
      InodeKind.Evolves (.file old) (.file new)

structure Inode.Evolves (old new : Inode) : Prop where
  mount_eq : new.mountId = old.mountId
  create_eq : new.attrs.createTime = old.attrs.createTime
  modify_le : old.attrs.modifyTime ≤ new.attrs.modifyTime
  kind : old.kind.Evolves new.kind

theorem FileData.Evolves.refl (file : FileData) : file.Evolves file :=
  ⟨rfl, le_rfl, le_rfl, le_rfl, fun _ => ⟨rfl, rfl⟩⟩

theorem FileData.Evolves.trans {old mid new : FileData} (hmid : old.Evolves mid)
    (hnew : mid.Evolves new) : old.Evolves new where
  layout_eq := hnew.layout_eq.trans hmid.layout_eq
  epoch_le := hmid.epoch_le.trans hnew.epoch_le
  generation_le := hmid.generation_le.trans hnew.generation_le
  index_le := hmid.index_le.trans hnew.index_le
  content_eq heq := by
    have hmidLe := hmid.generation_le
    have hnewLe := hnew.generation_le
    obtain ⟨hblocks, hlen⟩ := hnew.content_eq (by lia)
    obtain ⟨hblocks', hlen'⟩ := hmid.content_eq (by lia)
    exact ⟨hblocks.trans hblocks', hlen.trans hlen'⟩

theorem InodeKind.Evolves.refl (kind : InodeKind) : kind.Evolves kind := by
  cases kind with
  | dir => exact .dir
  | file file => exact .file (.refl file)

theorem Inode.Evolves.refl (inode : Inode) : inode.Evolves inode :=
  ⟨rfl, rfl, le_rfl, .refl _⟩

theorem InodeKind.Evolves.trans {old mid new : InodeKind} (hmid : old.Evolves mid)
    (hnew : mid.Evolves new) : old.Evolves new := by
  cases hmid with
  | dir => exact hnew
  | file h =>
    cases hnew with
    | file h' => exact .file (h.trans h')

theorem Inode.Evolves.trans {mid : Inode} (hmid : old.Evolves mid) (hnew : mid.Evolves new) :
    old.Evolves new where
  mount_eq := hnew.mount_eq.trans hmid.mount_eq
  create_eq := hnew.create_eq.trans hmid.create_eq
  modify_le := hmid.modify_le.trans hnew.modify_le
  kind := hmid.kind.trans hnew.kind

theorem Inode.Evolves.of_file (h : old.Evolves new) (hkind : old.kind = .file file) :
    ∃ file', new.kind = .file file' ∧ file.Evolves file' := by
  have hevolves := h.kind
  rw [hkind] at hevolves
  generalize hnew : new.kind = kind at hevolves
  cases hevolves with
  | file hfile => exact ⟨_, rfl, hfile⟩

theorem Inode.Evolves.fileType_eq (h : old.Evolves new) : new.fileType = old.fileType := by
  have hkind := h.kind
  unfold Inode.fileType
  generalize old.kind = oldKind, new.kind = newKind at hkind ⊢
  cases hkind with
  | dir | file => rfl

/-- The content of an inode: blocks, length and generation of a file. -/
def Inode.content (inode : Inode) : Option (List BlockId × ℕ × ContentGeneration) :=
  match inode.kind with
  | .dir => none
  | .file file => some (file.blocks, file.len, file.generation)

theorem touchParent_evolves (parent : Inode) (proposedAtMs : ℕ) :
    parent.Evolves (touchParent parent proposedAtMs) where
  mount_eq := rfl
  create_eq := rfl
  modify_le := le_max_left _ _
  kind := .refl _

theorem Published.evolves {proposedAtMs : ℕ} {prepared : PreparedPublication}
    (h : Published inode publication proposedAtMs prepared) : inode.Evolves prepared.inode := by
  cases h with
  | visible => exact .refl _
  | replaced hkind =>
    refine ⟨rfl, rfl, le_max_left _ _, ?_⟩
    rw [hkind]
    refine .file ⟨rfl, le_rfl, Nat.le_succ _, le_rfl, fun heq => ?_⟩
    exact absurd heq (Nat.succ_ne_self _)

section

variable {inode : Inode} {publication : FilePublication} {proposedAtMs : ℕ}
  {prepared : PreparedPublication} {file : FileData}

section

variable (h : Published inode publication proposedAtMs prepared)
include h

theorem Published.inodeId_eq : prepared.inode.inodeId = inode.inodeId := by
  cases h <;> rfl

/-- What a publication leaves is the file it reports: its generation, its target
size, and a valid shape. -/
theorem Published.file_ok {file' : FileData} (hvalid : ∀ file, inode.kind = .file file →
      file.validate inode.inodeId = .ok ()) (hkind' : prepared.inode.kind = .file file') :
    file'.validate inode.inodeId = .ok () ∧ file'.generation = prepared.generation ∧
      file'.len = publication.targetSize := by
  cases h with
  | visible hkind _ hvisible =>
    rw [hkind] at hkind'
    cases hkind'
    exact ⟨hvalid _ hkind, rfl, matchesVisible_len hvisible⟩
  | replaced hkind _ hmerged =>
    cases hkind'
    obtain ⟨hlayout, _⟩ := validate_eq_ok_iff.1 (hvalid _ hkind)
    obtain ⟨hcount, hnodup, hids, _⟩ := mergedBlocks_ok hmerged
    exact ⟨validate_eq_ok_iff.2 ⟨hlayout, hcount, hids, hnodup⟩, rfl, rfl⟩

theorem Published.epoch_eq
    (hkind : inode.kind = .file file) : file.leaseEpoch = publication.leaseEpoch := by
  cases h with
  | visible hkind' hepoch | replaced hkind' hepoch =>
    rw [hkind] at hkind'
    cases hkind'
    exact hepoch

end

end

end Beryl
