import Beryl.Evolution

/-!
# The history of files

Along every run of applied commands, whatever the commands and their clocks:
stored files are valid, no id is given out twice, versions evolve, a generation
fixes the content, and a writer whose epoch has passed changes nothing.
-/

namespace Beryl

open History FileData Inode Reached Store Run

def Inode.Valid (inode : Inode) : Prop :=
  ∀ file, inode.kind = .file file → file.validate inode.inodeId = .ok () ∧
    ∀ commit, file.lastCommit = some commit → commit.Agrees file

variable {s s' : Store} {i : InodeId} {inode : Inode} {command : Command} {batch : WriteBatch}
  {success : ApplySuccess} {past : Past} {epoch : LeaseEpoch}

theorem FilesSound.valid (h : FilesSound s) (hkeyed : Keyed s) (hinode : s.inode i = some inode) :
    inode.Valid := by
  intro file hkind
  rw [hkeyed.inodeId_eq hinode]
  exact ⟨h.validate_eq hinode hkind, fun commit hcommit => h.evidence hinode hkind hcommit⟩

theorem newLeasedFile_valid {attrs : InodeAttrs} {mountId : MountId} {layout : FileLayout}
    (h : layout.validate = .ok ()) : (newLeasedFile i attrs mountId layout).Valid := by
  intro file hkind
  cases hkind
  obtain ⟨_, hsize, _⟩ := (FileLayout.validate_eq_ok_iff layout).1 h
  refine ⟨validate_eq_ok_iff.2 ⟨h, ?_, ?_, List.nodup_nil⟩, ?_⟩
  · simp [blockCount, requiredBlocks, hsize.ne']
  · simp
  · simp

theorem InodeWrite.valid (h : InodeWrite s s' command batch inode) (hfiles : FilesSound s)
    (hkeyed : Keyed s) : inode.Valid := by
  cases h with
  | directory _ hdir =>
    intro file hkind
    rw [hdir] at hkind
    cases hkind
  | newFile _ hlayout => exact newLeasedFile_valid hlayout
  | touched hinode =>
    have hvalid := hfiles.valid hkeyed hinode
    exact hvalid
  | leased hfile =>
    obtain ⟨hvalid, hevidence⟩ := hfiles.valid hkeyed hfile.inode_eq _ hfile.kind_eq
    rintro _ ⟨⟩
    refine ⟨hvalid, fun commit hcommit => ?_⟩
    have hagrees := hevidence commit hcommit
    exact { hagrees with epoch_lt := hagrees.epoch_lt.trans (Nat.lt_succ_self _) }
  | allocated hfile =>
    obtain ⟨hvalid, hevidence⟩ := hfiles.valid hkeyed hfile.inode_eq _ hfile.kind_eq
    rintro _ ⟨⟩
    refine ⟨validate_eq_ok_iff.2 ?_, fun commit hcommit => ?_⟩
    · obtain ⟨hlayout, hcount, hids, hnodup⟩ := validate_eq_ok_iff.1 hvalid
      exact ⟨hlayout, hcount, fun block hblock => ⟨(hids block hblock).1,
        (hids block hblock).2.trans (Nat.lt_succ_self _)⟩, hnodup⟩
    · have hagrees := hevidence commit hcommit
      exact { hagrees with }
  | published hfile hpublished =>
    have hvalid := hfiles.valid hkeyed hfile.inode_eq
    intro file' hkind'
    rw [hpublished.inodeId_eq]
    refine ⟨(hpublished.file_ok (fun file hkind => (hvalid file hkind).1) hkind').1,
      fun commit hcommit => ?_⟩
    cases hpublished with
    | visible => exact (hvalid file' hkind').2 commit hcommit
    | replaced =>
      cases hkind'
      cases hcommit
  | committed hfile _ _ hpublished hkind hbound =>
    have hvalid := hfiles.valid hkeyed hfile.inode_eq
    obtain ⟨hshape, hgeneration, hlen⟩ :=
      hpublished.file_ok (fun file hkind => (hvalid file hkind).1) hkind
    rintro _ ⟨⟩
    refine ⟨?_, fun commit hcommit => ?_⟩
    · simp only [withFile]
      rw [hpublished.inodeId_eq]
      exact hshape
    · cases hcommit
      exact ⟨hgeneration.symm, hlen.symm, Nat.lt_succ_self _, hbound⟩

theorem Effect.filesSound (hkeyed : Keyed s) (hfiles : FilesSound s)
    (h : Effect s command success batch) : FilesSound (s.applyBatch batch) := by
  have hvalid : ∀ {i inode}, (s.applyBatch batch).inode i = some inode →
      inode.inodeId = i ∧ inode.Valid := by
    intro i inode hinode
    rcases applyBatch_inode hinode with hold | ⟨hput, hid⟩
    · exact ⟨hkeyed.inodeId_eq hold, hfiles.valid hkeyed hold⟩
    · exact ⟨hid, (h.write hkeyed hput).valid hfiles hkeyed⟩
  constructor
  · intro i inode file hinode hkind
    obtain ⟨rfl, hok⟩ := hvalid hinode
    exact (hok file hkind).1
  · intro i inode file commit hinode hkind hcommit
    exact ((hvalid hinode).2 file hkind).2 commit hcommit

theorem FilesSound.empty : FilesSound Store.empty := by
  constructor <;> simp [Store.empty, Store.inode]

theorem Applies.filesSound {entry : LogApply} (h : Applies s entry s') (hkeyed : Keyed s)
    (hfiles : FilesSound s) : FilesSound s' := by
  rcases h.cases with ⟨success, batch, _, heffect, rfl⟩ | ⟨_, rfl⟩
  · exact heffect.filesSound hkeyed hfiles
  · exact hfiles

theorem Reached.filesSound (h : Reached past s) : FilesSound s :=
  invariant h .empty fun hrun hfiles _ hstep =>
    hstep.filesSound (keyed hrun) hfiles

/-- Stored files are valid, and what exists in two states of a run has only moved
forward between them. -/
theorem Reached.files_valid_and_monotone {past : Past} {s : Store} (hrun : Reached past s) :
    (∀ t ∈ visited past s, ∀ i inode file, t.inode i = some inode → inode.kind = .file file →
      file.validate i = .ok () ∧
      file.blocks.length = file.len ⌈/⌉ file.layout.blockSize ∧
      (∀ block ∈ file.blocks, block.inodeId = i ∧ block.index < file.nextIndex) ∧
      file.blocks.Nodup) ∧
    (visited past s).Pairwise fun later earlier => ∀ i old new,
      earlier.inode i = some old → later.inode i = some new →
      new.mountId = old.mountId ∧
      new.attrs.createTime = old.attrs.createTime ∧
      old.attrs.modifyTime ≤ new.attrs.modifyTime ∧
      new.fileType = old.fileType ∧
      ∀ file file', old.kind = .file file → new.kind = .file file' →
        file'.layout = file.layout ∧ file.leaseEpoch ≤ file'.leaseEpoch ∧
        file.generation ≤ file'.generation ∧ file.nextIndex ≤ file'.nextIndex := by
  constructor
  · intro t ht i inode file hinode hkind
    obtain ⟨earlier, hearlier⟩ := of_mem_visited hrun ht
    have hvalid := (filesSound hearlier).validate_eq hinode hkind
    have hshape := wellShaped hvalid
    exact ⟨hvalid, hshape.count_eq, fun block hblock =>
      ⟨hshape.block_owned block hblock, hshape.block_allocated block hblock⟩, hshape.blocks_nodup⟩
  · refine pairwise hrun fun {past s t} hrun ht => ?_
    intro i old new hold hnew
    obtain ⟨earlier, hearlier⟩ := of_mem_visited hrun ht
    have hversion := (evolves hrun ht).version (keyed hearlier) hold hnew
    refine ⟨hversion.mount_eq, hversion.create_eq, hversion.modify_le, hversion.fileType_eq,
      fun file file' hkind hkind' => ?_⟩
    obtain ⟨file'', hkind'', hevolves⟩ := hversion.of_file hkind
    rw [hkind'] at hkind''
    cases hkind''
    exact ⟨hevolves.layout_eq, hevolves.epoch_le, hevolves.generation_le, hevolves.index_le⟩

theorem files_valid_and_monotone_sampleLog :
    let run := healthyRun .empty sampleLog
    Reached run.1 run.2 ∧ ∃ inode file, run.2.inode 2 = some inode ∧
      inode.kind = .file file ∧ file.len = 3 ∧ file.validate 2 = .ok () := by
  intro run
  have hrun : Reached run.1 run.2 := Reached.healthyRun _
  refine ⟨hrun, _, _, rfl, rfl, rfl, ?_⟩
  exact ((files_valid_and_monotone hrun).1 _ self_mem_visited 2 _ _ rfl rfl).1

/-- A written inode keeps its content, or is the only write of its batch and the
next generation. -/
theorem InodeWrite.content_cases (h : InodeWrite s s' command batch inode) :
    Made s s' inode ∨ ∃ old, s.inode inode.inodeId = some old ∧
      (inode.content = old.content ∨ (batch = [.putInode inode] ∧
        ∃ file file', old.kind = .file file ∧ inode.kind = .file file' ∧
          file'.generation = file.generation + 1)) := by
  have hstored : ∀ {i old file}, FileAt s i old file → s.inode old.inodeId = some old := by
    intro i old file hfile
    rw [hfile.id_eq]
    exact hfile.inode_eq
  cases h with
  | directory hmade | newFile hmade => exact .inl hmade
  | touched hinode => exact .inr ⟨_, hinode, .inl rfl⟩
  | @leased _ inode _ hfile =>
    have hinode : s.inode inode.inodeId = some inode := hstored hfile
    refine .inr ⟨inode, hinode, .inl ?_⟩
    simp [content, withFile, hfile.kind_eq]
  | @allocated _ inode _ hfile =>
    have hinode : s.inode inode.inodeId = some inode := hstored hfile
    refine .inr ⟨inode, hinode, .inl ?_⟩
    simp [content, withFile, hfile.kind_eq]
  | published hfile hpublished hbatch =>
    refine .inr ⟨_, hpublished.inodeId_eq ▸ hstored hfile, ?_⟩
    cases hpublished with
    | visible => exact .inl rfl
    | replaced hkind => exact .inr ⟨hbatch, _, _, hkind, rfl, rfl⟩
  | @committed _ inode _ _ _ _ _ _ prepared hfile _ _ hpublished hkind _ hbatch =>
    have hinode : s.inode prepared.inode.inodeId = some inode :=
      hpublished.inodeId_eq ▸ hstored hfile
    refine .inr ⟨inode, hinode, ?_⟩
    cases hpublished with
    | visible hkind' =>
      rw [hkind'] at hkind
      cases hkind
      refine .inl ?_
      simp [content, withFile, hkind']
    | replaced hkind' =>
      cases hkind
      exact .inr ⟨hbatch, _, _, hkind', rfl, rfl⟩

theorem Effect.content_cases (hkeyed : Keyed s) (h : Effect s command success batch) :
    (∀ i old new, s.inode i = some old → (s.applyBatch batch).inode i = some new →
      new.content = old.content) ∨ ∃ i old new file file', s.inode i = some old ∧
      (s.applyBatch batch).inode i = some new ∧ old.kind = .file file ∧
      new.kind = .file file' ∧ file'.generation = file.generation + 1 ∧
      ∀ j, j ≠ i → (s.applyBatch batch).inode j = s.inode j := by
  by_cases hnext : ∃ inode old file file', batch = [.putInode inode] ∧
      s.inode inode.inodeId = some old ∧ old.kind = .file file ∧
      inode.kind = .file file' ∧ file'.generation = file.generation + 1
  · obtain ⟨inode, old, file, file', rfl, hold, hkind, hkind', hgeneration⟩ := hnext
    refine .inr ⟨inode.inodeId, old, inode, file, file', hold, ?_, hkind, hkind', hgeneration,
      fun j hj => ?_⟩
    · simp [applyBatch, BatchOp.apply, Store.inode]
    · simp [applyBatch, BatchOp.apply, Store.inode, hj]
  · refine .inl fun i old new hold hnew => ?_
    rcases applyBatch_inode hnew with hsame | ⟨hput, rfl⟩
    · rw [hold] at hsame
      cases hsame
      rfl
    · rcases (h.write hkeyed hput).content_cases with hmade | ⟨old', hold', hcontent⟩
      · exact absurd (hkeyed.lt_next hold) (not_lt.2 hmade.next_le)
      · rw [hold] at hold'
        cases hold'
        rcases hcontent with hcontent | ⟨hbatch, file, file', hkind, hkind', hgeneration⟩
        · exact hcontent
        · exact absurd ⟨new, old, file, file', hbatch, hold, hkind, hkind', hgeneration⟩ hnext

/-- A generation fixes the content of a file, and one command moves at most one
file to its next generation. -/
theorem Reached.generation_fixes_content {past : Past} {s : Store} (hrun : Reached past s) :
    ((visited past s).Pairwise fun later earlier => ∀ i old new file file',
      earlier.inode i = some old → later.inode i = some new →
      old.kind = .file file → new.kind = .file file' → file'.generation = file.generation →
      file'.blocks = file.blocks ∧ file'.len = file.len) ∧
    ∀ t ∈ past,
      (∀ i old new, t.before.inode i = some old → t.after.inode i = some new →
        new.content = old.content) ∨
      ∃ i old new file file', t.before.inode i = some old ∧ t.after.inode i = some new ∧
        old.kind = .file file ∧ new.kind = .file file' ∧
        file'.generation = file.generation + 1 ∧
        ∀ j, j ≠ i → t.after.inode j = t.before.inode j := by
  constructor
  · refine pairwise hrun fun {past s t} hrun ht => ?_
    intro i old new file file' hold hnew hkind hkind'
    obtain ⟨earlier, hearlier⟩ := of_mem_visited hrun ht
    have hversion := (evolves hrun ht).version (keyed hearlier) hold hnew
    obtain ⟨file'', hkind'', hevolves⟩ := hversion.of_file hkind
    rw [hkind'] at hkind''
    cases hkind''
    exact hevolves.content_eq
  · intro t ht
    obtain ⟨older, hbefore, _, hstep⟩ := of_mem hrun ht
    rcases hstep.cases with ⟨success, batch, _, heffect, hafter⟩ | ⟨_, hafter⟩
    · rw [hafter]
      exact heffect.content_cases (keyed hbefore)
    · refine .inl fun i old new hold hnew => ?_
      rw [hafter, hold] at hnew
      cases hnew
      rfl

/-- The commit of the sample log is the transition that raises a generation. -/
theorem generation_fixes_content_sampleLog :
    let run := healthyRun .empty sampleLog
    Reached run.1 run.2 ∧ ∃ t ∈ run.1,
      (t.before.inode 2).map content ≠ (t.after.inode 2).map content ∧
      ∃ i old new file file', t.before.inode i = some old ∧
        t.after.inode i = some new ∧ old.kind = .file file ∧ new.kind = .file file' ∧
        file'.generation = file.generation + 1 ∧
        ∀ j, j ≠ i → t.after.inode j = t.before.inode j := by
  intro run
  have hrun : Reached run.1 run.2 := Reached.healthyRun _
  refine ⟨hrun, _, List.mem_cons_self, by decide, ?_⟩
  rcases (generation_fixes_content hrun).2 _ List.mem_cons_self with hsame | hraised
  · exact absurd (hsame 2 _ _ rfl rfl) (by decide)
  · exact hraised

/-- The command writes to the inode as the holder of the given epoch. -/
def Command.WritesAs (i : InodeId) (epoch : LeaseEpoch) : Command → Prop
  | .allocateBlock inodeId leaseEpoch => inodeId = i ∧ leaseEpoch = epoch
  | .publishFile _ inodeId publication => inodeId = i ∧ publication.leaseEpoch = epoch
  | .commitFile _ inodeId _ _ publication =>
    inodeId = i ∧ publication.leaseEpoch = epoch
  | _ => False

/-- A write that takes effect carries the file's epoch, unless it repeats a
recorded commit. -/
theorem Effect.epoch_cases (h : Effect s command success batch)
    (hwrites : command.WritesAs i epoch) :
    (∃ inode file, s.inode i = some inode ∧ inode.kind = .file file ∧ file.leaseEpoch = epoch) ∨
    batch = [] ∧ ∃ t clientId callId publication inode file generation,
      command = .commitFile t i clientId callId publication ∧
      s.inode i = some inode ∧ inode.kind = .file file ∧
      file.lastCommit = some (publication.evidence clientId callId generation) ∧
      success = .fileCommitted i generation (epoch + 1) := by
  cases h with
  | blockAllocated hfile =>
    obtain ⟨rfl, rfl⟩ := hwrites
    exact .inl ⟨_, _, hfile.inode_eq, hfile.kind_eq, rfl⟩
  | filePublished hfile hprepared | publishUnchanged hfile hprepared
  | fileCommitted hfile _ _ _ hprepared =>
    obtain ⟨rfl, rfl⟩ := hwrites
    exact .inl ⟨_, _, hfile.inode_eq, hfile.kind_eq,
      (prepareFilePublication_ok hprepared).epoch_eq hfile.kind_eq⟩
  | commitReplayed hfile hresolve =>
    obtain ⟨rfl, rfl⟩ := hwrites
    obtain ⟨file, hkind, hcommit, _⟩ := resolveCommit_some hresolve
    exact .inr ⟨rfl, _, _, _, _, _, file, _, rfl, hfile.inode_eq, hkind, hcommit, rfl⟩
  | _ => exact hwrites.elim

/-- Once a file's epoch has passed `epoch`, a success of a command that writes as
its holder repeats a recorded commit. -/
theorem Reached.replays_of_passed {u : Store} {file : FileData}
    (hrun : Reached past s) (hu : u ∈ visited past s) (hinode : u.inode i = some inode)
    (hkind : inode.kind = .file file) (hpassed : epoch < file.leaseEpoch)
    (hwrites : command.WritesAs i epoch) (heffect : Effect s command success batch) :
    batch = [] ∧ ∃ t clientId callId publication inode file generation,
      command = .commitFile t i clientId callId publication ∧
      s.inode i = some inode ∧ inode.kind = .file file ∧
      file.lastCommit = some (publication.evidence clientId callId generation) ∧
      success = .fileCommitted i generation (epoch + 1) := by
  rcases heffect.epoch_cases hwrites with
    ⟨inode', file', hinode', hkind', hepoch⟩ | hreplay
  · obtain ⟨earlier, hearlier⟩ := of_mem_visited hrun hu
    have hversion := (evolves hrun hu).version (keyed hearlier) hinode hinode'
    obtain ⟨file'', hkind'', hevolves⟩ := hversion.of_file hkind
    rw [hkind'] at hkind''
    cases hkind''
    have hle := hevolves.epoch_le
    lia
  · exact hreplay

/-- Once a file's epoch has passed `epoch`, a command that writes as its holder is
not successful, or repeats a recorded commit; either way the store stays. -/
theorem Reached.stale_epoch_changes_nothing {past : Past} {s s' u : Store}
    {entry : LogApply} {i : InodeId} {epoch : LeaseEpoch} {inode : Inode}
    {file : FileData} (hrun : Reached past s) (hu : u ∈ visited past s)
    (hinode : u.inode i = some inode) (hkind : inode.kind = .file file)
    (hpassed : epoch < file.leaseEpoch) (hwrites : entry.command.WritesAs i epoch)
    (hstep : Applies s entry s') : s' = s ∧ (entry.success = none ∨
      ∃ t clientId callId publication inode file generation,
        entry.command = .commitFile t i clientId callId publication ∧
        s.inode i = some inode ∧ inode.kind = .file file ∧
        file.lastCommit = some (publication.evidence clientId callId generation) ∧
        entry.success = some (.fileCommitted i generation (epoch + 1))) := by
  rcases hstep.cases with ⟨success, batch, hsuccess, heffect, rfl⟩ | ⟨hnone, rfl⟩
  · obtain ⟨rfl, hreplay⟩ := replays_of_passed hrun hu hinode hkind hpassed hwrites heffect
    obtain ⟨t, clientId, callId, publication, inode', file', generation, hcommand, hinode', hkind',
      hcommit, rfl⟩ := hreplay
    exact ⟨rfl, .inr ⟨t, clientId, callId, publication, inode', file', generation, hcommand,
      hinode', hkind', hcommit, hsuccess⟩⟩
  · exact ⟨rfl, .inl hnone⟩

/-- After the commit of the sample log its lease epoch has passed. -/
theorem stale_epoch_changes_nothing_sampleLog :
    let run := healthyRun .empty sampleLog
    let outcome := run.2.applied (.allocateBlock 2 1)
    Reached run.1 run.2 ∧ outcome.2.store = run.2 := by
  intro run outcome
  have hrun : Reached run.1 run.2 := Reached.healthyRun _
  have hstep : Applies run.2 ⟨.allocateBlock 2 1, .initial, outcome.1⟩ outcome.2.store :=
    ⟨.healthy run.2, outcome.2, rfl, rfl, rfl⟩
  have hwrites : (Command.allocateBlock 2 1).WritesAs 2 1 := ⟨rfl, rfl⟩
  obtain ⟨inode, file, hinode, hkind, hpassed⟩ : ∃ inode file, run.2.inode 2 = some inode ∧
      inode.kind = .file file ∧ 1 < file.leaseEpoch :=
    ⟨_, _, rfl, rfl, Nat.one_lt_two⟩
  exact ⟨hrun, (stale_epoch_changes_nothing hrun self_mem_visited hinode hkind
    hpassed hwrites hstep).1⟩

end Beryl
