import Beryl.FileHistory

/-!
# Commits take effect once

A `CommitFile` that has succeeded leaves evidence in its inode.  While the content
stays and no other commit replaces the evidence, the same command is recognised
and answered from it; once the evidence is gone, the epoch the command carries has
passed and it can no longer change the inode.
-/

namespace Beryl

open History FilePublication Inode Reached Store Transaction

variable {publication : FilePublication} {file : FileData}

theorem startIndex_of_layout_eq {file' : FileData} {start : ℕ}
    (h : publication.startIndex file = .ok start) (hlayout : file'.layout = file.layout) :
    publication.startIndex file' = .ok start := by
  unfold FilePublication.startIndex tailIndex at h ⊢
  rw [hlayout]
  exact h

theorem matchesVisible_of_startIndex {start : ℕ} (hstart : publication.startIndex file = .ok start)
    (hsuffix : publication.suffixVisible file start = true) :
    publication.matchesVisible file = .ok true := by
  unfold matchesVisible
  rw [hstart, ← hsuffix]

theorem matchesVisible_of_eq {file' : FileData} (h : publication.matchesVisible file = .ok true)
    (hlayout : file'.layout = file.layout) (hlen : file'.len = file.len)
    (hblocks : file'.blocks = file.blocks) : publication.matchesVisible file' = .ok true := by
  unfold matchesVisible suffixVisible at h ⊢
  rw [hlen, hblocks]
  cases hstart : publication.startIndex file with
  | error =>
    rw [hstart] at h
    cases h
  | ok =>
    rw [hstart] at h
    rw [startIndex_of_layout_eq hstart hlayout]
    exact h

theorem Published.matchesVisible {inode : Inode} {t : ℕ} {prepared : PreparedPublication}
    (h : Published inode publication t prepared) (hkind : prepared.inode.kind = .file file) :
    publication.matchesVisible file = .ok true := by
  cases h with
  | visible hkind' _ hvisible =>
    rw [hkind'] at hkind
    cases hkind
    exact hvisible
  | @replaced old blocks hkind' _ hmerged =>
    cases hkind
    obtain ⟨_, _, _, start, hstart, hle, hdrop⟩ := mergedBlocks_ok hmerged
    refine matchesVisible_of_startIndex (startIndex_of_layout_eq hstart rfl) ?_
    simp [suffixVisible, hle, hdrop]

/-- The file carries the evidence of the commit and still shows its content. -/
structure FileData.RecordsCommit (file : FileData) (clientId : ClientId)
    (callId : CallId) (publication : FilePublication)
    (generation : ContentGeneration) : Prop where
  evidence : file.lastCommit = some (publication.evidence clientId callId generation)
  visible : publication.matchesVisible file = .ok true

def Store.RecordsCommit (s : Store) (i : InodeId) (clientId : ClientId)
    (callId : CallId) (publication : FilePublication)
    (generation : ContentGeneration) : Prop :=
  ∃ inode file, s.inode i = some inode ∧ inode.kind = .file file ∧
    file.RecordsCommit clientId callId publication generation

section

variable {s s' : Store} {i : InodeId} {clientId : ClientId} {callId : CallId}
  {publication : FilePublication} {generation : ContentGeneration} {inode : Inode} {t : ℕ}
  {batch : WriteBatch} {success : ApplySuccess}

theorem Store.RecordsCommit.resolve (h : s.RecordsCommit i clientId callId publication generation)
    (hfiles : FilesSound s) (hinode : s.inode i = some inode) :
    publication.resolveCommit inode clientId callId = .ok (some generation) := by
  obtain ⟨inode', file, hinode', hkind, hrecords⟩ := h
  rw [hinode] at hinode'
  cases hinode'
  exact resolveCommit_of_evidence hkind hrecords.evidence
    (hfiles.evidence hinode hkind hrecords.evidence) hrecords.visible

theorem Store.inode_applyBatch_putInode (hid : inode.inodeId = i) :
    (s.applyBatch [.putInode inode]).inode i = some inode := by
  simp [applyBatch, BatchOp.apply, Store.inode, hid]

theorem Effect.recordsCommit {epoch : LeaseEpoch}
    (h : Effect s (.commitFile t i clientId callId publication) (.fileCommitted i generation
      epoch) batch) :
    (s.applyBatch batch).RecordsCommit i clientId callId publication generation := by
  cases h with
  | @fileCommitted _ _ inode file published _ _ _ prepared hfile _ _ _ hprepared
      hpublished =>
      have hprepared := prepareFilePublication_ok hprepared
      have hid : prepared.inode.inodeId = i := hprepared.inodeId_eq.trans hfile.id_eq
      have hvisible := hprepared.matchesVisible hpublished
      exact ⟨_, _, inode_applyBatch_putInode hid, rfl, rfl,
        matchesVisible_of_eq hvisible rfl rfl rfl⟩
  | commitReplayed hfile hresolve =>
    obtain ⟨file, hkind, hevidence, hvisible⟩ := resolveCommit_some hresolve
    exact ⟨_, file, hfile.inode_eq, hkind, hevidence, hvisible⟩

theorem Effect.commit_passes
    (h : Effect s (.commitFile t i clientId callId publication) success batch)
    (hchanged : (s.applyBatch batch).inode i ≠ s.inode i) :
    ∃ inode file, (s.applyBatch batch).inode i = some inode ∧ inode.kind = .file file ∧
      publication.leaseEpoch < file.leaseEpoch := by
  cases h with
  | @fileCommitted _ _ inode file published _ _ _ prepared hfile _ _ _ hprepared
      hpublished =>
      have hprepared := prepareFilePublication_ok hprepared
      have hid : prepared.inode.inodeId = i := hprepared.inodeId_eq.trans hfile.id_eq
      exact ⟨_, _, inode_applyBatch_putInode hid, rfl, Nat.lt_succ_self _⟩
  | commitReplayed => exact absurd rfl hchanged

def Command.IsLease : Command → Prop
  | .acquireWriteLease _ _ _ => True
  | .endWriteLease _ _ _ => True
  | _ => False

/-- The transition leaves a commit of the inode alone: it moves a lease, it is the
same commit again, or the content stays and no commit of the inode succeeds. -/
inductive LeavesCommit (i : InodeId) (clientId : ClientId) (callId : CallId)
    (publication : FilePublication) (t : Transition Store LogApply) : Prop
  | lease (hlease : t.label.command.IsLease)
  | again {time : ℕ}
      (hcommand : t.label.command = .commitFile time i clientId callId publication)
  | other
      (hcontent : (t.after.inode i).map Inode.content = (t.before.inode i).map Inode.content)
      (hnot : ∀ time clientId' callId' publication',
        t.label.command = .commitFile time i clientId' callId' publication' →
        t.label.success = none)

theorem InodeWrite.recordsCommit {command : Command} {old : Inode} {file : FileData}
    (h : InodeWrite s s' command batch inode) (hkeyed : Keyed s)
    (hstored : s.inode inode.inodeId = some old) (hkind : old.kind = .file file)
    (hrecords : file.RecordsCommit clientId callId publication generation)
    (hcontent : inode.content = old.content)
    (hnot : ∀ time clientId' callId' publication', command ≠ .commitFile time inode.inodeId
      clientId' callId' publication') : ∃ file', inode.kind = .file file' ∧
      file'.RecordsCommit clientId callId publication generation := by
  have hnotMade : ¬Made s s' inode := fun hmade =>
    absurd (hkeyed.lt_next hstored) (not_lt.2 hmade.next_le)
  cases h with
  | directory hmade | newFile hmade => exact absurd hmade hnotMade
  | @touched inode t hinode =>
    have heq : s.inode inode.inodeId = some old := hstored
    rw [hinode] at heq
    cases heq
    exact ⟨file, hkind, hrecords⟩
  | @leased j inode file' hfile | @allocated j inode file' hfile =>
    have heq : s.inode inode.inodeId = some old := hstored
    rw [hfile.id_eq, hfile.inode_eq] at heq
    cases heq
    rw [hfile.kind_eq] at hkind
    cases hkind
    exact ⟨_, rfl, hrecords.evidence, matchesVisible_of_eq hrecords.visible rfl rfl rfl⟩
  | published hfile hpublished =>
    rw [hpublished.inodeId_eq, hfile.id_eq, hfile.inode_eq] at hstored
    cases hstored
    cases hpublished with
    | visible => exact ⟨file, hkind, hrecords⟩
    | replaced hkind' => simp [content, hkind'] at hcontent
  | @committed j inode file' _ t _ _ _ prepared hfile hcommand _ hpublished _ _ _ =>
    have hid : prepared.inode.inodeId = j := hpublished.inodeId_eq.trans hfile.id_eq
    exact absurd (hid ▸ hcommand) (hnot t _ _ _)

theorem Effect.lease_content {command : Command} (h : Effect s command success batch)
    (hlease : command.IsLease) :
    ((s.applyBatch batch).inode i).map Inode.content = (s.inode i).map Inode.content := by
  have hput : ∀ {j inode file epoch}, FileAt s j inode file →
      ((s.applyBatch [.putInode
        (inode.withFile { file with leaseEpoch := epoch })]).inode i).map content =
        (s.inode i).map content := by
    intro j inode file epoch hfile
    by_cases hi : inode.inodeId = i
    · rw [inode_applyBatch_putInode (by exact hi), ← hi, hfile.id_eq, hfile.inode_eq]
      simp [content, withFile, hfile.kind_eq]
    · simp [applyBatch, BatchOp.apply, Store.inode, withFile, Ne.symm hi]
  cases h with
  | leaseAcquired hfile | leaseEnded hfile => exact hput hfile
  | leaseEndRepeated => rfl
  | _ => exact hlease.elim

theorem Effect.batch_eq_nil
    (h : Effect s (.commitFile t i clientId callId publication) success batch)
    (hfiles : FilesSound s) (hrecords : s.RecordsCommit i clientId callId publication generation) :
    batch = [] := by
  cases h with
  | fileCommitted hfile hresolve =>
    rw [hrecords.resolve hfiles hfile.inode_eq] at hresolve
    cases hresolve
  | commitReplayed => rfl

theorem Applies.recordsCommit {t : Transition Store LogApply}
    (hstep : Applies t.before t.label t.after) (hkeyed : Keyed t.before)
    (hfiles : FilesSound t.before) (hleaves : LeavesCommit i clientId callId publication t)
    (h : t.before.RecordsCommit i clientId callId publication generation) :
    t.after.RecordsCommit i clientId callId publication generation := by
  rcases hstep.cases with ⟨success, batch, hsuccess, heffect, hafter⟩ | ⟨_, hafter⟩
  · have hother : (t.after.inode i).map content = (t.before.inode i).map content →
        (∀ time clientId' callId' publication',
          t.label.command ≠ .commitFile time i clientId' callId' publication') →
        t.after.RecordsCommit i clientId callId publication generation := by
      intro hcontent hnot
      obtain ⟨old, file, hold, hkind, hrecords⟩ := h
      cases hnew : t.after.inode i with
      | none =>
        rw [hnew, hold] at hcontent
        cases hcontent
      | some new =>
        rw [hnew, hold] at hcontent
        have hread := hnew
        rw [hafter] at hread
        rcases applyBatch_inode hread with hsame | ⟨hput, rfl⟩
        · rw [hold] at hsame
          cases hsame
          exact ⟨_, file, hnew, hkind, hrecords⟩
        · obtain ⟨file', hkind', hrecords'⟩ := (heffect.write hkeyed hput).recordsCommit
            hkeyed hold hkind hrecords (Option.some.inj hcontent) hnot
          exact ⟨new, file', hnew, hkind', hrecords'⟩
    cases hleaves with
    | lease hlease =>
      refine hother ?_ fun time clientId' callId' publication' hcommand => ?_
      · rw [hafter]
        exact heffect.lease_content hlease
      · rw [hcommand] at hlease
        exact hlease
    | again hcommand =>
      rw [hcommand] at heffect
      rw [hafter, heffect.batch_eq_nil hfiles h]
      exact h
    | other hcontent hnot =>
      refine hother hcontent fun time clientId' callId' publication' hcommand => ?_
      have hnone := hnot _ _ _ _ hcommand
      rw [hsuccess] at hnone
      cases hnone
  · rw [hafter]
    exact h

end

section

variable {db : Db} {raftState : AppMetadataRaftState} {i : InodeId} {inode : Inode}
  {file : FileData} {clientId : ClientId} {callId : CallId}
  {publication : FilePublication} {generation : ContentGeneration}

theorem loadFileInode_healthy (h : db.env.Healthy) (hfile : FileAt db.store i inode file) :
    loadFileInode i db = (.ok inode, db) := by
  have hok := file_eq_ok.2 hfile.kind_eq
  simp [loadFileInode, ensureFileInodeAuthority, getInode, query_healthy h, bind, pure, okOr,
    failIf, ofResult, hfile.inode_eq, hfile.id_eq, hok, hfile.valid, fileType, hfile.kind_eq]

theorem applyCommitted_replays (h : db.env.Healthy) (hfile : FileAt db.store i inode file)
    (hresolve : publication.resolveCommit inode clientId callId = .ok (some generation))
    (hbound : publication.leaseEpoch + 1 < 2 ^ 64) (t : ℕ) :
    applyCommitted (.commitFile t i clientId callId publication) raftState db =
      (.ok ⟨.ok (.fileCommitted i generation (publication.leaseEpoch + 1)), .none⟩,
        db.commit [] raftState) := by
  have hnext : checkedNext publication.leaseEpoch = some (publication.leaseEpoch + 1) :=
    checkedAddU64_of_lt hbound
  simp [applyCommitted, attempt, applyCommand, applyCommitFile, bind, pure, okOr, hnext,
    loadFileInode_healthy h hfile, hresolve, ofResult, commitAppliedState,
    commitAuthorityBatch_healthy h, CommittedApply.new, RoutingIntent.ofCommand]

theorem Reached.applyCommitted_replays {past : Past} (hrun : Reached past db.store)
    (hhealthy : db.env.Healthy)
    (hrecords : db.store.RecordsCommit i clientId callId publication generation) (t : ℕ) :
    applyCommitted (.commitFile t i clientId callId publication) raftState db =
      (.ok ⟨.ok (.fileCommitted i generation (publication.leaseEpoch + 1)), .none⟩,
        db.commit [] raftState) := by
  have hfiles := filesSound hrun
  obtain ⟨inode, file, hinode, hkind, hrecord⟩ := hrecords
  have hfile : FileAt db.store i inode file :=
    ⟨hinode, (keyed hrun).inodeId_eq hinode, hkind, hfiles.validate_eq hinode hkind⟩
  have hagrees := hfiles.evidence hinode hkind hrecord.evidence
  have hresolve : publication.resolveCommit inode clientId callId = .ok (some generation) :=
    resolveCommit_of_evidence hkind hrecord.evidence hagrees hrecord.visible
  exact Beryl.applyCommitted_replays hhealthy hfile hresolve hagrees.epoch_bound t

end

/-- A commit with a fixed payload changes its inode at most once.  After it has
succeeded it is answered with the same generation and changes nothing, for as long
as later transitions leave it alone. -/
theorem Reached.commit_takes_effect_once {past : Past} {s : Store}
    (hrun : Reached past s) (i : InodeId) (clientId : ClientId) (callId : CallId)
    (publication : FilePublication) :
    (past.Pairwise fun later earlier => ∀ time time',
      earlier.label.command = .commitFile time i clientId callId publication →
      later.label.command = .commitFile time' i clientId callId publication →
      earlier.after.inode i ≠ earlier.before.inode i → later.after.inode i = later.before.inode i) ∧
    ∀ newer older t time generation epoch, past = newer ++ t :: older →
      t.label.command = .commitFile time i clientId callId publication →
      t.label.success = some (.fileCommitted i generation epoch) →
      (∀ u ∈ newer, LeavesCommit i clientId callId publication u) →
      ∀ db raftState time', db.store = s → db.env.Healthy →
        ∃ db', applyCommitted (.commitFile time' i clientId callId publication) raftState db =
            (.ok ⟨.ok (.fileCommitted i generation (publication.leaseEpoch + 1)), .none⟩, db') ∧
          db'.store = s := by
  constructor
  · refine Run.pairwise_past hrun fun {past s label s'} hrun _ hstep earlier hearlier => ?_
    intro time time' hfirst hagain hchanged
    obtain ⟨older, _, _, hbefore⟩ := Run.of_mem hrun hearlier
    have hafter := Run.after_mem_visited hrun hearlier
    rcases hbefore.cases with ⟨success, batch, _, heffect, heq⟩ | ⟨_, heq⟩
    · rw [hfirst] at heffect
      rw [heq] at hchanged hafter
      obtain ⟨inode, file, hinode, hkind, hpassed⟩ := heffect.commit_passes hchanged
      rcases hstep.cases with ⟨success', batch', _, heffect', rfl⟩ | ⟨_, rfl⟩
      · have hwrites : label.command.WritesAs i publication.leaseEpoch := by
          rw [show label.command = _ from hagain]
          exact ⟨rfl, rfl⟩
        obtain ⟨rfl, _⟩ := replays_of_passed hrun hafter hinode hkind hpassed hwrites heffect'
        rfl
      · rfl
    · exact absurd (by rw [heq]) hchanged
  · rintro newer older t time generation epoch rfl hcommand hsuccess hleaves db raftState
      time' rfl hhealthy
    have hmem : t ∈ newer ++ t :: older := List.mem_append_right _ List.mem_cons_self
    obtain ⟨_, _, _, hstep⟩ := Run.of_mem hrun hmem
    have hafter : t.after.RecordsCommit i clientId callId publication generation := by
      rcases hstep.cases with ⟨success, batch, hsome, heffect, heq⟩ | ⟨hnone, _⟩
      · rw [hsome] at hsuccess
        cases hsuccess
        rw [hcommand] at heffect
        rw [heq]
        exact heffect.recordsCommit
      · rw [hnone] at hsuccess
        cases hsuccess
    have hrecords : db.store.RecordsCommit i clientId callId publication generation :=
      Run.since (P := fun s => s.RecordsCommit i clientId callId publication generation)
        hrun hafter fun u hu {_} hbefore hrecords hnext =>
          Applies.recordsCommit hnext (keyed hbefore)
            (filesSound hbefore) (hleaves u hu) hrecords
    exact ⟨_, applyCommitted_replays hrun hhealthy hrecords time', rfl⟩

/-- The commit of the sample log, applied again after the lease was taken anew. -/
theorem commit_takes_effect_once_sampleLog :
    let run := healthyRun .empty (.acquireWriteLease 30 2 2 :: sampleLog)
    Reached run.1 run.2 ∧ ∃ db', applyCommitted sampleCommit .initial (.healthy run.2) =
      (.ok ⟨.ok (.fileCommitted 2 1 2), .none⟩, db') ∧ db'.store = run.2 := by
  intro run
  have hrun : Reached run.1 run.2 := Reached.healthyRun _
  refine ⟨hrun, (commit_takes_effect_once hrun 2 7 2 samplePublication).2
    [_] _ _ 3 1 2 rfl rfl rfl ?_ (.healthy run.2) .initial 3 rfl fun _ => rfl⟩
  intro u hu
  rw [List.mem_singleton.1 hu]
  exact .lease trivial

end Beryl
