import Beryl.SyncWrite

/-!
# What an answered sync has made visible

A sync is answered because its publication was applied, or because the state showed its payload
when the leader looked.  In both cases an applied state has the file at the answered generation,
with the length that was asked for and the blocks of the payload at its end.  The blocks before
the payload are those of the expected generation if the change between the two generations was
an append behind them; the handler does not know how a generation was made, and answers as well
when it was a replacement.
-/

namespace Beryl

open History Transaction Reached FilePublication FileData List

/-! ## Files of a store -/

def Store.HoldsFile (s : Store) (i : InodeId) (file : FileData) : Prop :=
  ∃ inode, s.inode i = some inode ∧ inode.kind = .file file

/-- Where both stores hold the file at one generation, they show the same content. -/
def Store.SameContent (i : InodeId) (u v : Store) : Prop :=
  ∀ file file', u.HoldsFile i file → v.HoldsFile i file' →
    file'.generation = file.generation →
    file'.blocks = file.blocks ∧ file'.len = file.len ∧ file'.layout = file.layout

variable {s : Store} {ε : Type} {i : InodeId}

theorem Store.HoldsFile.unique {file file' : FileData} (h : s.HoldsFile i file)
    (h' : s.HoldsFile i file') : file' = file := by
  obtain ⟨inode, hinode, hkind⟩ := h
  obtain ⟨inode', hinode', hkind'⟩ := h'
  cases hinode.symm.trans hinode'
  cases hkind.symm.trans hkind'
  rfl

variable {past : Past}

theorem Reached.sameContent {u v : Store} (hrun : Reached past s)
    (hu : u ∈ visited past s) (hv : v ∈ visited past s) (i : InodeId) :
    Store.SameContent i u v := by
  have hsymm : Std.Symm (Store.SameContent i) := by
    refine ⟨fun u v huv file file' hfile hfile' hgeneration => ?_⟩
    obtain ⟨hblocks, hlen, hlayout⟩ := huv file' file hfile' hfile hgeneration.symm
    exact ⟨hblocks.symm, hlen.symm, hlayout.symm⟩
  apply List.Pairwise.forall_of_forall (R := Store.SameContent i) _ _ hu hv
  · intro u _ file file' hfile hfile' _
    rw [hfile.unique hfile']
    exact ⟨rfl, rfl, rfl⟩
  · refine Run.pairwise hrun fun {past s t} hrun ht => ?_
    intro new old hnew hold hgeneration
    obtain ⟨inode', hinode', hkind'⟩ := hnew
    obtain ⟨inode, hinode, hkind⟩ := hold
    obtain ⟨earlier, hearlier⟩ := Run.of_mem_visited hrun ht
    have hversion := (evolves hrun ht).version (keyed hearlier) hinode hinode'
    obtain ⟨new', hnew', hevolves⟩ := hversion.of_file hkind
    cases hkind'.symm.trans hnew'
    obtain ⟨hblocks, hlen⟩ := hevolves.content_eq hgeneration.symm
    exact ⟨hblocks.symm, hlen.symm, hevolves.layout_eq.symm⟩

variable {batch : WriteBatch} {inode : Inode} {command : Command}

theorem InodeWrite.generation_le {s' : Store} {file : FileData}
    (h : InodeWrite s s' command batch inode)
    (hkind : inode.kind = .file file) : file.generation = 0 ∨ ∃ old, s.HoldsFile inode.inodeId old ∧
      file.generation ≤ old.generation + 1 := by
  have hstored : ∀ {i old oldFile}, FileAt s i old oldFile → s.HoldsFile old.inodeId oldFile := by
    intro i old oldFile hfile
    rw [hfile.id_eq]
    exact ⟨old, hfile.inode_eq, hfile.kind_eq⟩
  have hpublished : ∀ {i old oldFile publication t prepared published},
      FileAt s i old oldFile → Published old publication t prepared →
      prepared.inode.kind = .file published → published.generation ≤ oldFile.generation + 1 := by
    intro i old oldFile publication t prepared published hfile hprepared hkind
    cases hprepared with
    | visible =>
      cases hkind.symm.trans hfile.kind_eq
      exact Nat.le_succ _
    | replaced hkind' =>
      cases hkind
      cases hkind'.symm.trans hfile.kind_eq
      exact le_rfl
  cases h with
  | directory _ hdir =>
    rw [hdir] at hkind
    cases hkind
  | newFile =>
    cases hkind
    exact .inl rfl
  | touched hinode => exact .inr ⟨file, ⟨_, hinode, hkind⟩, Nat.le_succ _⟩
  | leased hfile | allocated hfile =>
    cases hkind
    have hold := hstored hfile
    exact .inr ⟨_, hold, Nat.le_succ _⟩
  | published hfile hprepared =>
    rw [hprepared.inodeId_eq]
    exact .inr ⟨_, hstored hfile, hpublished hfile hprepared hkind⟩
  | committed hfile _ _ hprepared hkind' =>
    cases hkind
    have hle := hpublished hfile hprepared hkind'
    have hold := hstored hfile
    rw [← hprepared.inodeId_eq] at hold
    exact .inr ⟨_, hold, hle⟩

theorem Reached.earlier_generation (hrun : Reached past s) :
    ∀ u ∈ visited past s, ∀ {i : InodeId} {file : FileData}, u.HoldsFile i file →
      ∀ g ≤ file.generation,
        ∃ v ∈ visited past s, ∃ base, v.HoldsFile i base ∧ base.generation = g := by
  induction hrun with
  | start =>
    intro u hu i file hfile
    obtain ⟨inode, hinode, -⟩ := hfile
    rw [mem_singleton.1 hu] at hinode
    simp [Store.empty, Store.inode] at hinode
  | @next past s s' label hrun hadmits hstep ih =>
    intro u hu i file hfile g hg
    have hearlier : ∀ w ∈ visited past s, ∀ {old}, w.HoldsFile i old → g ≤ old.generation →
        ∃ v ∈ visited (⟨s, label, s'⟩ :: past) s', ∃ base, v.HoldsFile i base ∧
          base.generation = g := by
      intro w hw old hold hle
      obtain ⟨v, hv, hbase⟩ := ih w hw hold g hle
      exact ⟨v, mem_cons_of_mem _ hv, hbase⟩
    rcases mem_cons.1 hu with rfl | hu
    · by_cases hlast : file.generation = g
      · exact ⟨u, self_mem_visited, file, hfile, hlast⟩
      obtain ⟨inode, hinode, hkind⟩ := hfile
      rcases hstep.cases with ⟨success, batch, -, heffect, rfl⟩ | ⟨-, rfl⟩
      · rcases Store.applyBatch_inode hinode with hsame | ⟨hput, rfl⟩
        · exact hearlier s self_mem_visited ⟨inode, hsame, hkind⟩ hg
        · have hwrite := heffect.write (keyed hrun) hput
          rcases hwrite.generation_le hkind with hzero | ⟨old, hold, hle⟩
          · lia
          · exact hearlier s self_mem_visited hold (by lia)
      · exact hearlier u self_mem_visited ⟨inode, hinode, hkind⟩ hg
    · exact hearlier u hu hfile hg

/-! ## What the answer rests on -/

theorem except_bind_eq_ok {α β : Type} {x : Except ε α} {f : α → Except ε β} {value : β}
    (h : x >>= f = .ok value) : ∃ a, x = .ok a ∧ f a = .ok value := by
  cases x with
  | error => cases h
  | ok a => exact ⟨a, rfl, h⟩

theorem rejectWhen_eq_ok {condition : Prop} [Decidable condition] {error : ε} {value : Unit}
    (h : rejectWhen condition error = .ok value) : ¬condition := by
  unfold rejectWhen at h
  split at h
  · cases h
  · assumption

theorem orReject_eq_ok {α : Type} {found : Option α} {error : ε} {value : α}
    (h : orReject found error = .ok value) : found = some value := by
  cases found with
  | none => cases h
  | some => rw [Except.ok.inj h]

def SyncWriteArgs.publication (args : SyncWriteArgs) : FilePublication where
  blocks := args.committedBlocks
  targetSize := args.targetSize
  expectedGeneration := args.expectedGeneration
  expectedFileSize := args.expectedFileSize
  leaseEpoch := args.leaseEpoch
  mode := args.publishMode

/-- The inode that was read shows the payload, at one of the two generations. -/
structure SyncWriteArgs.ShownBy (args : SyncWriteArgs) (file : FileData) : Prop where
  isVisible : args.publication.matchesVisible file = .ok true
  generation : file.generation = args.expectedGeneration ∨
    file.generation = args.expectedGeneration + 1

variable {generation : ContentGeneration} {args : SyncWriteArgs}

theorem resolveSyncedState_some {readInode : MetadataResult (Option Inode)} {mountId : MountId}
    {storedEpoch : LeaseEpoch} (h : resolveSyncedState readInode args.inodeId args.leaseEpoch
      ⟨args.committedBlocks, args.targetSize, args.expectedFileSize⟩ args.expectedGeneration
      args.publishMode = .ok (some (mountId, generation, storedEpoch))) :
    ∃ inode file, readInode = .ok (some inode) ∧ inode.kind = .file file ∧
      file.generation = generation ∧ args.ShownBy file := by
  unfold resolveSyncedState at h
  obtain ⟨found, hread, h⟩ := except_bind_eq_ok h
  obtain ⟨inode, hfound, h⟩ := except_bind_eq_ok h
  obtain ⟨_, _, h⟩ := except_bind_eq_ok h
  obtain ⟨file, hfile, h⟩ := except_bind_eq_ok h
  obtain ⟨_, _, h⟩ := except_bind_eq_ok h
  obtain ⟨_, _, h⟩ := except_bind_eq_ok h
  obtain ⟨isVisible, hvisible, h⟩ := except_bind_eq_ok h
  rw [orReject_eq_ok hfound] at hread
  refine ⟨inode, file, hread, Inode.file_eq_ok.1 hfile, ?_⟩
  split at h
  next hshown =>
    cases h
    refine ⟨rfl, ?_, ?_⟩
    · rw [← hshown.1]
      exact hvisible
    · rcases hshown.2 with hnext | hsame
      · exact .inr (checkedNext_eq_some hnext)
      · exact .inl hsame.1
  next =>
    split at h
    · cases h
    · cases h

section Handler

variable {ctx : RequestContext} {clientId : ClientId} {readings : SyncReadings}
  {args : SyncWriteArgs} {success : FsSuccess SyncWriteOutput} {mode : PublishMode}

theorem beginWritePublication_ok {session : WriteSession}
    (h : beginWritePublication ctx clientId readings args mode = .ok session) :
    readings.begun = .ok session := by
  unfold beginWritePublication at h
  obtain ⟨begun, hbegun, h⟩ := except_bind_eq_ok h
  obtain ⟨_, _, h⟩ := except_bind_eq_ok h
  cases h
  exact mapError_eq_ok.1 hbegun

variable {intent : CloseWriteIntent} {admitted : AdmittedSync}

theorem admitSync_ok {activeSession : Option WriteSession}
    (h : admitSync ctx clientId readings args intent activeSession = .ok admitted) :
    readings.begun = .ok admitted.session ∧ admitted.blocks = intent.committedBlocks := by
  unfold admitSync at h
  obtain ⟨_, _, h⟩ := except_bind_eq_ok h
  obtain ⟨session, hsession, h⟩ := except_bind_eq_ok h
  obtain ⟨_, _, h⟩ := except_bind_eq_ok h
  obtain ⟨⟨groupName, mountEpoch⟩, _, h⟩ := except_bind_eq_ok h
  obtain ⟨_, _, h⟩ := except_bind_eq_ok h
  obtain ⟨_, _, h⟩ := except_bind_eq_ok h
  obtain ⟨_, _, h⟩ := except_bind_eq_ok h
  obtain ⟨_, _, h⟩ := except_bind_eq_ok h
  obtain ⟨blocks, hblocks, h⟩ := except_bind_eq_ok h
  obtain ⟨_, _, h⟩ := except_bind_eq_ok h
  obtain ⟨_, _, h⟩ := except_bind_eq_ok h
  cases h
  exact ⟨beginWritePublication_ok hsession,
    (validateCommittedBlocks_ok (mapError_eq_ok.1 hblocks)).1⟩

theorem revalidatePublishSession_ok {expected session : WriteSession}
    (h : revalidatePublishSession ctx clientId readings expected mode = .ok session) :
    session.inodeId = expected.inodeId := by
  unfold revalidatePublishSession at h
  obtain ⟨_, _, h⟩ := except_bind_eq_ok h
  obtain ⟨current, _, h⟩ := except_bind_eq_ok h
  obtain ⟨_, _, h⟩ := except_bind_eq_ok h
  obtain ⟨_, hsame, h⟩ := except_bind_eq_ok h
  obtain ⟨_, _, h⟩ := except_bind_eq_ok h
  cases h
  have hsame := rejectWhen_eq_ok hsame
  simp only [not_or, not_not, ne_eq] at hsame
  exact hsame.1

theorem publishSync_ok (h : publishSync ctx clientId readings args intent admitted = .ok success) :
    ∃ generation, success.payload = ⟨intent.finalSize, some generation⟩ ∧
      readings.proposed (.publishFile readings.proposedAtMs admitted.session.inodeId
        { intent.publication args.leaseEpoch args.expectedGeneration args.publishMode with
          blocks := admitted.blocks }) = .ok generation := by
  unfold publishSync at h
  obtain ⟨_, _, h⟩ := except_bind_eq_ok h
  obtain ⟨⟨groupName, mountEpoch⟩, _, h⟩ := except_bind_eq_ok h
  obtain ⟨_, _, h⟩ := except_bind_eq_ok h
  obtain ⟨_, _, h⟩ := except_bind_eq_ok h
  obtain ⟨session, hsession, h⟩ := except_bind_eq_ok h
  obtain ⟨_, _, h⟩ := except_bind_eq_ok h
  obtain ⟨⟨routedGroup, routedEpoch⟩, _, h⟩ := except_bind_eq_ok h
  obtain ⟨_, _, h⟩ := except_bind_eq_ok h
  obtain ⟨generation, hproposed, h⟩ := except_bind_eq_ok h
  cases h
  rw [revalidatePublishSession_ok hsession] at hproposed
  exact ⟨generation, rfl, mapError_eq_ok.1 hproposed⟩

/-- A sync succeeds because the inode that was read showed its payload, or because its
publication was applied. -/
theorem syncWrite_ok (h : syncWrite ctx clientId readings args = .ok success) :
    ∃ generation, success.payload = ⟨args.targetSize, some generation⟩ ∧
      ((∃ inode file, readings.inode = .ok (some inode) ∧ inode.kind = .file file ∧
          file.generation = generation ∧ args.ShownBy file) ∨
        ∃ session, readings.begun = .ok session ∧
          readings.proposed (.publishFile readings.proposedAtMs session.inodeId args.publication) =
            .ok generation) := by
  unfold syncWrite at h
  obtain ⟨_, _, h⟩ := except_bind_eq_ok h
  obtain ⟨_, _, h⟩ := except_bind_eq_ok h
  unfold syncWriteSession at h
  obtain ⟨activeSession, _, h⟩ := except_bind_eq_ok h
  obtain ⟨resolved, hresolved, h⟩ := except_bind_eq_ok h
  have hresolved := mapError_eq_ok.1 hresolved
  cases resolved with
  | some found =>
    obtain ⟨mountId, generation, storedEpoch⟩ := found
    refine ⟨generation, ?_, .inl (resolveSyncedState_some hresolved)⟩
    simp only [answerSyncedState] at h
    obtain ⟨_, _, h⟩ := except_bind_eq_ok h
    obtain ⟨_, _, h⟩ := except_bind_eq_ok h
    obtain ⟨⟨groupName, mountEpoch⟩, _, h⟩ := except_bind_eq_ok h
    obtain ⟨_, _, h⟩ := except_bind_eq_ok h
    obtain ⟨_, _, h⟩ := except_bind_eq_ok h
    cases h
    rfl
  | none =>
    obtain ⟨admitted, hadmitted, h⟩ := except_bind_eq_ok h
    obtain ⟨hbegun, hblocks⟩ := admitSync_ok hadmitted
    obtain ⟨generation, hpayload, hproposed⟩ := publishSync_ok h
    rw [hblocks] at hproposed
    exact ⟨generation, hpayload, .inr ⟨admitted.session, hbegun, hproposed⟩⟩

end Handler

/-! ## Appends -/

/-- The request asks for nothing beyond what it expects to be there. -/
def FilePublication.AsksNothing (publication : FilePublication) : Prop :=
  publication.blocks = [] ∧ publication.targetSize = publication.expectedFileSize

instance (publication : FilePublication) : Decidable publication.AsksNothing :=
  inferInstanceAs (Decidable (_ ∧ _))

def FilePublication.appendedTo (publication : FilePublication) (base : FileData) : List BlockId :=
  if publication.AsksNothing then base.blocks
  else base.blocks.take (publication.expectedFileSize / base.layout.blockSize) ++
    publication.blocks.map CommittedBlock.blockId

section Append

variable {publication : FilePublication} {file : FileData} {start : ℕ}

theorem startIndex_append (hmode : publication.mode = .appendIfUnchanged)
    (h : publication.startIndex file = .ok start) :
    publication.expectedFileSize ≤ publication.targetSize ∧
      (¬publication.AsksNothing → start = publication.expectedFileSize / file.layout.blockSize) ∧
      (publication.AsksNothing → start =
        requiredBlocks publication.expectedFileSize file.layout.blockSize) := by
  obtain ⟨hcount, -, htail, -⟩ := startIndex_parts h
  unfold tailIndex at htail
  rw [hmode] at htail
  simp only at htail
  split at htail
  · cases htail
  next hgrows =>
    refine ⟨not_lt.1 hgrows, ?_, ?_⟩
    · intro hasks
      unfold FilePublication.AsksNothing at hasks
      rw [if_neg hasks] at htail
      exact (Except.ok.inj htail).symm
    · intro hnothing
      rw [hnothing.1, length_nil, Nat.add_zero, hnothing.2] at hcount
      exact hcount.symm

theorem matchesVisible_append (hmode : publication.mode = .appendIfUnchanged)
    (h : publication.matchesVisible file = .ok true) :
    file.len = publication.targetSize ∧ publication.expectedFileSize ≤ publication.targetSize ∧
      (¬publication.AsksNothing →
        file.blocks.drop (publication.expectedFileSize / file.layout.blockSize) =
          publication.blocks.map CommittedBlock.blockId) := by
  unfold matchesVisible at h
  split at h
  · cases h
  next start hstart =>
    have hsuffix := Except.ok.inj h
    simp only [suffixVisible, Bool.and_eq_true, decide_eq_true_eq] at hsuffix
    obtain ⟨hgrows, hchanged, -⟩ := startIndex_append hmode hstart
    refine ⟨hsuffix.1.1, hgrows, ?_⟩
    intro hasks
    rw [← hchanged hasks]
    exact hsuffix.2

variable {inodeId : InodeId} {blocks : List BlockId}

theorem mergedBlocks_tail (hmode : publication.mode = .appendIfUnchanged)
    (h : publication.mergedBlocks inodeId file = .ok blocks)
    (hstart : publication.startIndex file = .ok start) (hinside : start < file.blocks.length) :
    publication.blocks.head?.map CommittedBlock.blockId = file.blocks[start]? := by
  unfold mergedBlocks keptBlocks at h
  rw [hstart, hmode] at h
  simp only at h
  split at h
  · cases h
  · split at h
    · cases h
    next kept hkept =>
      split at hkept
      · cases hkept
      · split at hkept
        · cases hkept
        next htail =>
          by_contra hne
          exact htail ⟨hinside, hne⟩

theorem FileData.requiredBlocks_le_div_add_one (len : ℕ) {capacity : ℕ} (hcapacity : 0 < capacity) :
    len / capacity ≤ requiredBlocks len capacity ∧
      requiredBlocks len capacity ≤ len / capacity + 1 := by
  unfold requiredBlocks
  split
  next hzero =>
    subst hzero
    simp
  next hpos =>
    have hle : (len - 1) / capacity ≤ len / capacity := Nat.div_le_div_right (Nat.sub_le _ _)
    have hge : len / capacity ≤ (len - 1) / capacity + 1 := by
      rw [Nat.div_le_iff_le_mul_add_pred hcapacity]
      have hlt := Nat.lt_div_mul_add (a := len - 1) hcapacity
      rw [Nat.mul_add, Nat.mul_one, Nat.mul_comm]
      omega
    omega

theorem mergedBlocks_append (hmode : publication.mode = .appendIfUnchanged)
    (h : publication.mergedBlocks inodeId file = .ok blocks) :
    file.len = publication.expectedFileSize ∧ file.len ≤ publication.targetSize ∧
      blocks.take (file.len / file.layout.blockSize) =
        file.blocks.take (file.len / file.layout.blockSize) ∧
      (publication.targetSize = file.len → blocks = file.blocks) := by
  obtain ⟨start, hstart, hle, rfl, hexpected⟩ := mergedBlocks_parts h
  have hexpected := hexpected hmode
  have hlength : file.blocks.length =
      requiredBlocks file.len file.layout.blockSize ∧ 0 < file.layout.blockSize := by
    unfold mergedBlocks at h
    split at h
    · cases h
    next hvalid =>
      obtain ⟨-, hcount, -⟩ := validate_eq_ok_iff.1 hvalid
      have hblocks := blockCount_eq_ok hcount
      exact ⟨hblocks.2, hblocks.1⟩
  obtain ⟨hlength, hcapacity⟩ := hlength
  obtain ⟨hcount, -, -, -⟩ := startIndex_parts hstart
  obtain ⟨hgrows, hchanged, hnothing⟩ := startIndex_append hmode hstart
  obtain ⟨hdiv, hnext⟩ := requiredBlocks_le_div_add_one file.len hcapacity
  rw [← hexpected] at hgrows hchanged hnothing
  refine ⟨hexpected, hgrows, ?_, ?_⟩
  · have hkept : file.len / file.layout.blockSize ≤ start := by
      by_cases hasks : publication.AsksNothing
      · rw [hnothing hasks]
        exact hdiv
      · rw [hchanged hasks]
    rw [take_append_of_le_length (by rw [length_take]; omega), take_take,
      Nat.min_eq_left hkept]
  · intro hsame
    by_cases hasks : publication.AsksNothing
    · rw [hasks.1, hnothing hasks, ← hlength]
      simp
    · rw [hsame, ← hlength] at hcount
      have hstarts := hchanged hasks
      have hblocks : publication.blocks ≠ [] := fun hnil => hasks ⟨hnil, by rw [hsame, hexpected]⟩
      obtain ⟨block, hblock⟩ : ∃ block, publication.blocks = [block] := by
        have hpos := length_pos_of_ne_nil hblocks
        exact length_eq_one_iff.1 (by omega)
      have htail := mergedBlocks_tail hmode h hstart (by rw [hcount, hblock]; simp)
      rw [hblock] at htail hcount ⊢
      simp only [head?_cons, Option.map_some] at htail
      have hlast : start < file.blocks.length := by
        rw [hcount]
        simp
      rw [getElem?_eq_getElem hlast, Option.some_inj] at htail
      rw [map_singleton, htail, take_concat_get', take_of_length_le (by simp [hcount])]

theorem blocks_eq_appendedTo {base : FileData} {request : FilePublication}
    (hmade : publication.mode = .appendIfUnchanged)
    (hmerged : publication.mergedBlocks inodeId base = .ok file.blocks)
    (hlen : file.len = publication.targetSize) (hlayout : file.layout = base.layout)
    (hmode : request.mode = .appendIfUnchanged) (hshown : request.matchesVisible file = .ok true)
    (hsize : request.expectedFileSize ≤ base.len) : file.blocks = request.appendedTo base := by
  obtain ⟨-, hgrows, htake, hsame⟩ := mergedBlocks_append hmade hmerged
  obtain ⟨htarget, -, hdrop⟩ := matchesVisible_append hmode hshown
  unfold appendedTo
  split
  next hnothing =>
    apply hsame
    have heq := hnothing.2
    omega
  next hasks =>
    have hcut : request.expectedFileSize / base.layout.blockSize ≤
        base.len / base.layout.blockSize := Nat.div_le_div_right hsize
    have hkept := congrArg (take (request.expectedFileSize / base.layout.blockSize)) htake
    rw [take_take, take_take, Nat.min_eq_left hcut] at hkept
    rw [← hdrop hasks, hlayout, ← hkept, take_append_drop]

end Append

/-! ## Publications that were applied -/

def Command.Publishes (i : InodeId) (publication : FilePublication) : Command → Prop
  | .publishFile _ inodeId payload => inodeId = i ∧ payload = publication
  | .commitFile _ inodeId _ _ payload => inodeId = i ∧ payload = publication
  | _ => False

variable {publication : FilePublication} {s : Store} {prepared : PreparedPublication}

theorem prepareFilePublication_generation {proposedAtMs : ℕ}
    (h : prepareFilePublication inode publication proposedAtMs = .ok prepared) :
    prepared.generation = publication.expectedGeneration ∨
      prepared.generation = publication.expectedGeneration + 1 := by
  unfold prepareFilePublication at h
  split at h
  · cases h
  · split at h
    · cases h
    · split at h
      · cases h
      · split at h
        next hreplay =>
          cases h
          exact .inr (checkedNext_eq_some hreplay.1)
        next =>
          split at h
          · cases h
          next hexpected =>
            simp only [not_or, not_not] at hexpected
            split at h
            · cases h
              exact .inl hexpected.1
            · split at h
              · cases h
              · split at h
                · cases h
                next hnext =>
                  cases h
                  rw [← hexpected.1]
                  exact .inr (checkedNext_eq_some hnext)

theorem Published.kind_generation {t : ℕ} (h : Published inode publication t prepared) :
    ∃ file, prepared.inode.kind = .file file ∧ file.generation = prepared.generation := by
  cases h with
  | visible hkind => exact ⟨_, hkind, rfl⟩
  | replaced => exact ⟨_, rfl, rfl⟩

theorem Effect.shows_published {t : ℕ}
    (h : Effect s (.publishFile t i publication) (.filePublished i generation) batch) :
    ∃ file, (s.applyBatch batch).HoldsFile i file ∧ file.generation = generation ∧
      publication.matchesVisible file = .ok true ∧ (generation = publication.expectedGeneration ∨
        generation = publication.expectedGeneration + 1) := by
  cases h with
  | filePublished hfile hprepared =>
    have hpublished := prepareFilePublication_ok hprepared
    obtain ⟨file, hkind, hgeneration⟩ := hpublished.kind_generation
    refine ⟨file, ⟨_, ?_, hkind⟩, hgeneration, hpublished.matchesVisible hkind,
      prepareFilePublication_generation hprepared⟩
    exact Store.inode_applyBatch_putInode (hpublished.inodeId_eq.trans hfile.id_eq)
  | publishUnchanged hfile hprepared hchanged =>
    have hpublished := prepareFilePublication_ok hprepared
    have hgeneration := prepareFilePublication_generation hprepared
    cases hpublished with
    | visible hkind _ hvisible =>
      exact ⟨_, ⟨_, hfile.inode_eq, hkind⟩, rfl, hvisible, hgeneration⟩
    | replaced => cases hchanged

theorem Effect.merged {success : ApplySuccess} {file file' : FileData}
    (h : Effect s command success batch)
    (hpublishes : command.Publishes i publication) (hfile : s.HoldsFile i file)
    (hfile' : (s.applyBatch batch).HoldsFile i file')
    (hraised : file'.generation = file.generation + 1) :
    publication.mergedBlocks i file = .ok file'.blocks ∧ file'.len = publication.targetSize ∧
      file'.layout = file.layout := by
  obtain ⟨inode', hinode', hkind'⟩ := hfile'
  have hmerged : ∀ {inode : Inode} {t : ℕ} {prepared : PreparedPublication} {published : FileData},
      inode.inodeId = i → inode.kind = .file file → Published inode publication t prepared →
      prepared.inode.kind = .file published → published.generation = file.generation + 1 →
      publication.mergedBlocks i file = .ok published.blocks ∧
        published.len = publication.targetSize ∧ published.layout = file.layout := by
    intro inode t prepared published hid hkind hpublished hpublishedKind hnext
    cases hpublished with
    | visible =>
      cases hkind.symm.trans hpublishedKind
      lia
    | replaced hkind₁ _ hmerged =>
      cases hpublishedKind
      cases hkind.symm.trans hkind₁
      rw [hid] at hmerged
      exact ⟨hmerged, rfl, rfl⟩
  cases h with
  | filePublished hat hprepared =>
    obtain ⟨rfl, rfl⟩ := hpublishes
    cases hfile.unique ⟨_, hat.inode_eq, hat.kind_eq⟩
    have hpublished := prepareFilePublication_ok hprepared
    rw [Store.inode_applyBatch_putInode (hpublished.inodeId_eq.trans hat.id_eq)] at hinode'
    cases hinode'
    exact hmerged hat.id_eq hat.kind_eq hpublished hkind' hraised
  | publishUnchanged | commitReplayed =>
    obtain ⟨rfl, rfl⟩ := hpublishes
    have hsame := hfile.unique ⟨inode', hinode', hkind'⟩
    rw [hsame] at hraised
    lia
  | fileCommitted hat _ _ _ hprepared hpublishedKind =>
    obtain ⟨rfl, rfl⟩ := hpublishes
    cases hfile.unique ⟨_, hat.inode_eq, hat.kind_eq⟩
    have hpublished := prepareFilePublication_ok hprepared
    have hid := hpublished.inodeId_eq.trans hat.id_eq
    cases hinode'.symm.trans (Store.inode_applyBatch_putInode hid)
    cases hkind'
    obtain ⟨hblocks, hlen, hlayout⟩ :=
      hmerged hat.id_eq hat.kind_eq hpublished hpublishedKind hraised
    exact ⟨hblocks, hlen, hlayout⟩
  | _ => exact hpublishes.elim

/-! ## Answered syncs -/

/-- The readings of a sync come from the run of its group: the inode from an applied state, the
session from a registry, and the success of the proposal from its entry in the log. -/
structure SyncReadings.Met (readings : SyncReadings) (args : SyncWriteArgs) (past : Past)
    (s : Store) : Prop where
  inode : ∀ inode, readings.inode = .ok (some inode) →
    ∃ u ∈ visited past s, u.inode args.inodeId = some inode
  begun : ∀ session, readings.begun = .ok session →
    ∃ registry calls world nowMs publication state, SessionWorld.Runs registry calls world ∧
      beginPublication args.inodeId args.leaseEpoch nowMs world.state =
        (.ok publication, state) ∧ publication.session = session
  proposed : ∀ t i publication generation,
    readings.proposed (.publishFile t i publication) = .ok generation →
      ∃ entry ∈ past, entry.label.command = .publishFile t i publication ∧
        entry.label.success = some (.filePublished i generation)

/-- The generation after `g` was made by an append to a file of at least this size. -/
def AppendMade (past : Past) (i : InodeId) (g : ContentGeneration) (size : ℕ) : Prop :=
  ∃ entry ∈ past, ∃ publication file file',
    entry.label.command.Publishes i publication ∧ entry.before.HoldsFile i file ∧
    entry.after.HoldsFile i file' ∧ file.generation = g ∧ file'.generation = g + 1 ∧
    publication.mode = .appendIfUnchanged ∧ size ≤ file.len

theorem SyncReadings.Met.shown {readings : SyncReadings}
    {ctx : RequestContext} {clientId : ClientId} {success : FsSuccess SyncWriteOutput}
    (hmet : readings.Met args past s) (hrun : Reached past s)
    (h : syncWrite ctx clientId readings args = .ok success) :
    ∃ generation, success.payload = ⟨args.targetSize, some generation⟩ ∧
      ∃ u ∈ visited past s, ∃ file, u.HoldsFile args.inodeId file ∧
        file.generation = generation ∧ args.ShownBy file := by
  obtain ⟨generation, hpayload, hresolved | happlied⟩ := syncWrite_ok h
  · obtain ⟨inode, file, hread, hkind, hgeneration, hshown⟩ := hresolved
    obtain ⟨u, hu, hinode⟩ := hmet.inode inode hread
    exact ⟨generation, hpayload, u, hu, file, ⟨inode, hinode, hkind⟩, hgeneration, hshown⟩
  · obtain ⟨session, hbegun, hproposed⟩ := happlied
    obtain ⟨registry, calls, world, nowMs, publication, state, hruns, hbegins, rfl⟩ :=
      hmet.begun session hbegun
    have hid : publication.session.inodeId = args.inodeId :=
      (((SessionWorld.Runs.sound hruns).state.beginPublication_settles args.inodeId
        args.leaseEpoch nowMs).of_ok hbegins).2.1
    obtain ⟨entry, hentry, hcommand, hsuccess⟩ := hmet.proposed _ _ _ _ hproposed
    rw [hid] at hcommand hsuccess
    obtain ⟨older, -, -, hstep⟩ := Run.of_mem hrun hentry
    rcases hstep.cases with ⟨applied, batch, hsome, heffect, hafter⟩ | ⟨hnone, -⟩
    · cases hsome.symm.trans hsuccess
      rw [hcommand] at heffect
      obtain ⟨file, hfile, hgeneration, hvisible, hnext⟩ := heffect.shows_published
      rw [← hafter] at hfile
      refine ⟨generation, hpayload, entry.after, Run.after_mem_visited hrun hentry, file, hfile,
        hgeneration, hvisible, ?_⟩
      rw [hgeneration]
      exact hnext
    · rw [hnone] at hsuccess
      cases hsuccess

theorem AppendMade.blocks_eq {u v : Store} {file base : FileData} (hrun : Reached past s)
    (hmade : AppendMade past args.inodeId args.expectedGeneration args.expectedFileSize)
    (hmode : args.publishMode = .appendIfUnchanged) (hu : u ∈ visited past s)
    (hfile : u.HoldsFile args.inodeId file)
    (hgeneration : file.generation = args.expectedGeneration + 1)
    (hvisible : args.publication.matchesVisible file = .ok true) (hv : v ∈ visited past s)
    (hbase : v.HoldsFile args.inodeId base)
    (hbaseGeneration : base.generation = args.expectedGeneration) :
    file.blocks = args.publication.appendedTo base := by
  obtain ⟨entry, hentry, publication, old, new, hpublishes, hold, hnew, hgenerationOld,
    hgenerationNew, happend, hsize⟩ := hmade
  obtain ⟨older, -, -, hstep⟩ := Run.of_mem hrun hentry
  have hbefore : entry.before ∈ visited past s := mem_cons_of_mem _ (mem_map_of_mem hentry)
  have hraised : new.generation = old.generation + 1 := by rw [hgenerationNew, hgenerationOld]
  rcases hstep.cases with ⟨applied, batch, -, heffect, hafter⟩ | ⟨-, hafter⟩
  · rw [hafter] at hnew
    obtain ⟨hmerged, hlen, hlayout⟩ := heffect.merged hpublishes hold hnew hraised
    rw [← hafter] at hnew
    obtain ⟨hblocks, hfileLen, hfileLayout⟩ := sameContent hrun
      (Run.after_mem_visited hrun hentry) hu args.inodeId new file hnew hfile
      (by rw [hgeneration, hgenerationNew])
    obtain ⟨hbaseBlocks, -, hbaseLayout⟩ := sameContent hrun hbefore hv args.inodeId old
      base hold hbase (by rw [hbaseGeneration, hgenerationOld])
    rw [← hblocks] at hmerged
    have heq := blocks_eq_appendedTo happend hmerged (hfileLen.trans hlen)
      (hfileLayout.trans hlayout) hmode hvisible hsize
    unfold appendedTo at heq ⊢
    rw [hbaseBlocks, hbaseLayout]
    exact heq
  · rw [hafter] at hnew
    have hsame := hold.unique hnew
    rw [hsame] at hraised
    lia

/-- An answered append sync has made its payload visible: an applied state has the file at the
answered generation, with the length and the last blocks that were asked for.  Before them stand
the blocks of the expected generation, if that is the generation of the answer or if the next one
was made by an append to at least the expected size. -/
theorem answered_sync_is_visible {readings : SyncReadings} {args : SyncWriteArgs} {past : Past}
    {s : Store} {ctx : RequestContext} {clientId : ClientId} {success : FsSuccess SyncWriteOutput}
    (hrun : Reached past s) (hmet : readings.Met args past s)
    (hmode : args.publishMode = .appendIfUnchanged)
    (h : syncWrite ctx clientId readings args = .ok success) :
    ∃ generation, success.payload = ⟨args.targetSize, some generation⟩ ∧
      ∃ u ∈ visited past s, ∃ file, u.HoldsFile args.inodeId file ∧
        file.generation = generation ∧ file.len = args.targetSize ∧ (¬args.publication.AsksNothing →
          file.blocks.drop (args.expectedFileSize / file.layout.blockSize) =
            args.committedBlocks.map CommittedBlock.blockId) ∧
        ∃ v ∈ visited past s, ∃ base, v.HoldsFile args.inodeId base ∧
          base.generation = args.expectedGeneration ∧ (generation = args.expectedGeneration ∨
              AppendMade past args.inodeId args.expectedGeneration args.expectedFileSize →
            file.blocks = args.publication.appendedTo base) := by
  obtain ⟨generation, hpayload, u, hu, file, hfile, hgeneration, hshown⟩ := hmet.shown hrun h
  obtain ⟨hlen, -, hdrop⟩ := matchesVisible_append hmode hshown.isVisible
  refine ⟨generation, hpayload, u, hu, file, hfile, hgeneration, hlen, hdrop, ?_⟩
  rcases hshown.generation with hsame | hnext
  · refine ⟨u, hu, file, hfile, hsame, fun _ => ?_⟩
    unfold appendedTo
    split
    · rfl
    next hasks =>
      have htail := hdrop hasks
      rw [← htail]
      exact (take_append_drop _ _).symm
  · obtain ⟨v, hv, base, hbase, hbaseGeneration⟩ := earlier_generation hrun u hu hfile
      args.expectedGeneration (by lia)
    refine ⟨v, hv, base, hbase, hbaseGeneration, ?_⟩
    intro hkeeps
    rcases hkeeps with hsame | hmade
    · lia
    · exact hmade.blocks_eq hrun hmode hu hfile hnext hshown.isVisible hv hbase hbaseGeneration

/-! ## A retried sync, and one that was never made -/

def twoBlocks (mode : PublishMode) : FilePublication where
  blocks := [⟨⟨2, 0⟩, 4⟩, ⟨⟨2, 1⟩, 4⟩]
  targetSize := 8
  expectedGeneration := 0
  expectedFileSize := 0
  leaseEpoch := 1
  mode := mode

def twoBlocksLog (mode : PublishMode) : List Command :=
  [.publishFile 5 2 (twoBlocks mode), .allocateBlock 2 1, .allocateBlock 2 1,
    .createFile 1 ⟨7, 1⟩ 10 20 "/f" 1 1 1 ["f"] .new sampleLayout,
    .bootstrapNamespace 0 rootGroup]

def retriedSync : SyncWriteArgs where
  inodeId := 2
  leaseEpoch := 1
  committedBlocks := [⟨⟨2, 0⟩, 4⟩, ⟨⟨2, 1⟩, 4⟩]
  targetSize := 8
  expectedGeneration := 0
  expectedFileSize := 0
  publishMode := .appendIfUnchanged

/-- The request to append the second block to a first one that the empty file does not have. -/
def halfSync : SyncWriteArgs where
  inodeId := 2
  leaseEpoch := 1
  committedBlocks := [⟨⟨2, 1⟩, 4⟩]
  targetSize := 8
  expectedGeneration := 0
  expectedFileSize := 4
  publishMode := .appendIfUnchanged

def sessionlessReadings (inode : Option Inode) : SyncReadings where
  admission := none
  session := none
  inode := .ok inode
  begun := .error .publicationIdExhausted
  mountHints := fun _ => .ok (some rootGroup, some 1)
  routeHint := fun _ _ => .ok (some 1)
  completed := .ok ()
  leaseValid := false
  workerLookupGroup := .ok rootGroup
  readyInode := .ok inode
  waited := .ok ()
  mountHintsAgain := fun _ => .ok (some rootGroup, some 1)
  routeHintAgain := fun _ _ => .ok (some 1)
  admissionAgain := none
  current := .error ""
  leaseValidAgain := false
  ready := .ok ()
  routed := .ok (rootGroup, 1)
  deadline := .ok ()
  proposedAtMs := 9
  proposed := fun _ => .error (.leaderChanged "")

def syncContext : RequestContext := ⟨some rootGroup, some 1, [], some 1⟩

theorem sessionlessReadings_met (past : Past) (s : Store) (args : SyncWriteArgs) :
    (sessionlessReadings (s.inode args.inodeId)).Met args past s := by
  constructor
  · intro inode hinode
    exact ⟨s, self_mem_visited, Except.ok.inj hinode⟩
  · intro session hbegun
    cases hbegun
  · intro t i publication generation hproposed
    cases hproposed

theorem answered_sync_is_visible_retried :
    let run := healthyRun .empty (twoBlocksLog .appendIfUnchanged)
    let readings := sessionlessReadings (run.2.inode 2)
    Reached run.1 run.2 ∧ readings.Met retriedSync run.1 run.2 ∧
      AppendMade run.1 2 0 0 ∧
      ∃ success, syncWrite syncContext 7 readings retriedSync = .ok success ∧
        ∃ generation, success.payload = ⟨8, some generation⟩ ∧
          ∃ u ∈ visited run.1 run.2, ∃ file, u.HoldsFile 2 file ∧
            file.generation = generation ∧ file.len = 8 ∧
            ∃ v ∈ visited run.1 run.2, ∃ base, v.HoldsFile 2 base ∧ base.generation = 0 ∧
              file.blocks = retriedSync.publication.appendedTo base := by
  intro run readings
  have hrun : Reached run.1 run.2 := Reached.healthyRun _
  have hmade : AppendMade run.1 2 0 0 :=
    ⟨_, mem_cons_self, twoBlocks .appendIfUnchanged, _, _, ⟨rfl, rfl⟩, ⟨_, rfl, rfl⟩,
      ⟨_, rfl, rfl⟩, rfl, rfl, rfl, Nat.zero_le _⟩
  have hmet : readings.Met retriedSync run.1 run.2 :=
    sessionlessReadings_met run.1 run.2 retriedSync
  have hanswer : syncWrite syncContext 7 readings retriedSync =
      .ok ⟨⟨8, some 1⟩, some rootGroup, some 1, some 1⟩ := rfl
  refine ⟨hrun, hmet, hmade, _, hanswer, ?_⟩
  obtain ⟨generation, hpayload, u, hu, file, hfile, hgeneration, hlen, -, v, hv, base, hbase,
    hbaseGeneration, hblocks⟩ := answered_sync_is_visible hrun hmet rfl hanswer
  exact ⟨generation, hpayload, u, hu, file, hfile, hgeneration, hlen, v, hv, base, hbase,
    hbaseGeneration, hblocks (.inr hmade)⟩

/-- The request for the second block alone is answered as well once both blocks were published,
although no block stands before it at the expected generation. -/
def HalfAnswered (mode : PublishMode) : Prop :=
  let run := healthyRun .empty (twoBlocksLog mode)
  let readings := sessionlessReadings (run.2.inode 2)
  Reached run.1 run.2 ∧ readings.Met halfSync run.1 run.2 ∧
    (∃ success, syncWrite syncContext 7 readings halfSync = .ok success ∧
      success.payload = ⟨8, some 1⟩) ∧
    ∀ u ∈ visited run.1 run.2, ∀ file, u.HoldsFile 2 file → file.generation = 1 →
      ∀ v ∈ visited run.1 run.2, ∀ base, v.HoldsFile 2 base → base.generation = 0 →
        file.blocks ≠ halfSync.publication.appendedTo base

theorem halfAnswered (mode : PublishMode) : HalfAnswered mode := by
  unfold HalfAnswered
  intro run readings
  have hrun : Reached run.1 run.2 := Reached.healthyRun _
  refine ⟨hrun, sessionlessReadings_met run.1 run.2 halfSync, ?_, ?_⟩
  · cases mode with
    | replaceIfUnchanged | appendIfUnchanged => exact ⟨_, rfl, rfl⟩
  intro u hu file hfile hgeneration v hv base hbase hbaseGeneration
  obtain ⟨new, hnew, hnewGeneration, hnewBlocks⟩ : ∃ new, run.2.HoldsFile 2 new ∧
      new.generation = 1 ∧ new.blocks = [⟨2, 0⟩, ⟨2, 1⟩] := by
    cases mode with
    | replaceIfUnchanged | appendIfUnchanged => exact ⟨_, ⟨_, rfl, rfl⟩, rfl, rfl⟩
  obtain ⟨w, hw, old, hold, holdGeneration, holdBlocks⟩ : ∃ w ∈ visited run.1 run.2, ∃ old,
      w.HoldsFile 2 old ∧ old.generation = 0 ∧ old.blocks = [] :=
    ⟨_, List.mem_cons_of_mem _ List.mem_cons_self, _, ⟨_, rfl, rfl⟩, rfl, rfl⟩
  obtain ⟨hblocks, -, -⟩ := Reached.sameContent hrun self_mem_visited hu 2 new file hnew hfile
    (hgeneration.trans hnewGeneration.symm)
  obtain ⟨hbaseBlocks, -, -⟩ := Reached.sameContent hrun hw hv 2 old base hold hbase
    (hbaseGeneration.trans holdGeneration.symm)
  rw [hblocks, hnewBlocks]
  unfold FilePublication.appendedTo
  rw [hbaseBlocks, holdBlocks, List.take_nil]
  decide

/-- It is answered whether the two blocks replaced the empty content or were appended to it. -/
theorem half_sync_is_answered :
    HalfAnswered .replaceIfUnchanged ∧ HalfAnswered .appendIfUnchanged :=
  ⟨halfAnswered _, halfAnswered _⟩

end Beryl
