import Beryl.FileHistory

/-!
# Ids are given once

An inode id comes from the allocator, which never moves back, and a block id from
the cursor of its file, which never moves back either.  So no run creates two
inodes with one id or returns one block id twice, also after deletes.
-/

namespace Beryl

open History Store Reached BatchOp

variable {s : Store} {next p c : InodeId} {n name : String} {entries : List RecursiveMkdirEntry}
  {attrs : InodeAttrs}

theorem DirectoryPlan.entry_unique {t : ℕ} {next' : InodeId}
    {root last : Inode} {components : List String}
    (hplan : DirectoryPlan s attrs t root next components last next' entries)
    {entry entry' : RecursiveMkdirEntry} (hentry : entry ∈ entries) (hentry' : entry' ∈ entries)
    (hid : entry.inode.inodeId = entry'.inode.inodeId) : entry = entry' := by
  have hnodup : (entries.map fun entry => entry.inode.inodeId).Nodup := by
    rw [hplan.ids.1]
    exact List.nodup_range'
  exact List.inj_on_of_nodup_map hnodup hentry hentry' hid

theorem putDentry_mem_directories {next : ℕ} (h : putDentry p n c ∈ directoriesOps entries next) :
    ∃ entry ∈ entries, entry.parentInodeId = p ∧ entry.name = n ∧ entry.inode.inodeId = c := by
  unfold directoriesOps at h
  split at h
  · cases h
  · rcases List.mem_append.1 h with h | h
    · obtain ⟨entry, hentry, h⟩ := List.mem_flatMap.1 h
      simp only [RecursiveMkdirEntry.ops, createEntryOps, List.mem_cons, reduceCtorEq,
        putDentry.injEq, List.not_mem_nil, or_false, false_or] at h
      exact ⟨entry, hentry, h.1.symm, h.2.1.symm, h.2.2.symm⟩
    · simp at h

theorem putDentry_mem_createEntryOps {q : InodeId} {inode parent : Inode}
    (h : putDentry q n c ∈ createEntryOps p name inode parent ++ [.putNextInodeId next]) :
    q = p ∧ n = name ∧ c = inode.inodeId := by
  simpa [createEntryOps] using h

theorem putDentry_mem_createFileOps {parent : Inode} {layout : FileLayout}
    {t count : ℕ} {eviction : WriteBatch} {record : CreateFileReplayRecord}
    (hroom : ReplayRoom s t eviction count)
    (h : putDentry p n c ∈ createFileOps parent name next attrs layout t eviction record
      count) : p = parent.inodeId ∧ n = name ∧ c = next := by
  cases hroom with
  | free => simpa [createFileOps, createEntryOps, recordOps, newLeasedFile] using h
  | evict =>
    simpa [createFileOps, createEntryOps, recordOps, evictionOps, newLeasedFile] using h

theorem putDentry_mem_renameOps {q x a : InodeId} {name' : String} {overwritten : Option InodeId}
    {parents : List Inode} (h : putDentry a n c ∈ renameOps p name q name' x overwritten parents) :
    a = q ∧ n = name' ∧ c = x := by
  cases overwritten <;> simpa [renameOps] using h

theorem putNextInodeId_notMem_renameOps {q x : InodeId} {name' : String}
    {overwritten : Option InodeId} {parents : List Inode} :
    putNextInodeId next ∉ renameOps p name q name' x overwritten parents := by
  cases overwritten <;> simp [renameOps]

variable {success : ApplySuccess} {batch : WriteBatch} {command : Command}

/-- An entry is put for an inode that exists, or for one that the allocator gives. -/
theorem Effect.entry_cases (h : Effect s command success batch) (hkeyed : Keyed s)
    (hput : putDentry p n c ∈ batch) :
    ((∃ inode, s.inode c = some inode) ∧ ∀ next, putNextInodeId next ∉ batch) ∨
    s.next ≤ c ∧ c < (s.applyBatch batch).next ∧
      ∀ q m, putDentry q m c ∈ batch → q = p ∧ m = n := by
  cases h with
  | bootstrapped => simp [bootstrapOps] at hput
  | directoryMade _ _ _ halloc =>
    obtain ⟨rfl, rfl, rfl⟩ := putDentry_mem_createEntryOps hput
    refine .inr ⟨halloc.next_get.le, ?_, ?_⟩
    · exact Nat.lt_succ_self _
    · intro q m hmem
      obtain ⟨rfl, rfl, _⟩ := putDentry_mem_createEntryOps hmem
      exact ⟨rfl, rfl⟩
  | directoriesMade hroot _ _ halloc hplan =>
    obtain ⟨entry, hentry, rfl, rfl, rfl⟩ := putDentry_mem_directories hput
    have hplanned := (hplan.planned hkeyed hroot entry hentry).1
    refine .inr ⟨halloc.next_get.trans_le hplanned.base_le, ?_, ?_⟩
    · have hnext := hplanned.lt_next
      have hne := List.ne_nil_of_mem hentry
      simpa [directoriesOps, hne, applyBatch_append, next, apply] using hnext
    · intro q m hmem
      obtain ⟨entry', hentry', rfl, rfl, hid⟩ := putDentry_mem_directories hmem
      rw [hplan.entry_unique hentry' hentry hid]
      exact ⟨rfl, rfl⟩
  | fileMade _ _ _ _ _ _ halloc hroom =>
    obtain ⟨rfl, rfl, rfl⟩ := putDentry_mem_createFileOps hroom hput
    refine .inr ⟨halloc.next_get.le, ?_, ?_⟩
    · rw [next, applyBatch_createFileOps hroom]
      exact Nat.lt_succ_self _
    · intro q m hmem
      obtain ⟨rfl, rfl, _⟩ := putDentry_mem_createFileOps hroom hmem
      exact ⟨rfl, rfl⟩
  | renameUnchanged _ _ hinode | renamed _ _ hinode =>
    obtain ⟨_, _, rfl⟩ := putDentry_mem_renameOps hput
    exact .inl ⟨⟨_, hinode⟩, fun _ => putNextInodeId_notMem_renameOps⟩
  | reclaimed => exact absurd hput putDentry_notMem_reclaim
  | _ => simp at hput

def ChildrenGiven (s : Store) : Prop := ∀ p n c, s.dentry p n = some c → c < s.next

theorem Effect.childrenGiven
    (h : Effect s command success batch) (hkeyed : Keyed s) (hgiven : ChildrenGiven s) :
    ChildrenGiven (s.applyBatch batch) := by
  intro p n c hdentry
  rcases applyBatch_dentry hdentry with hold | hput
  · exact (hgiven p n c hold).trans_le h.next_le
  · rcases h.entry_cases hkeyed hput with ⟨⟨inode, hinode⟩, _⟩ | ⟨_, hlt, _⟩
    · exact (hkeyed.lt_next hinode).trans_le h.next_le
    · exact hlt

theorem Reached.childrenGiven {past : Past} (h : Reached past s) : ChildrenGiven s := by
  apply Run.invariant h
  · intro p n c hdentry
    simp [empty, dentry] at hdentry
  · intro past s entry s' hrun hgiven _ hstep
    rcases hstep.cases with ⟨success, batch, _, heffect, rfl⟩ | ⟨_, rfl⟩
    · exact heffect.childrenGiven (keyed hrun) hgiven
    · exact hgiven

variable {entry : LogApply}

theorem Applies.next_le_of_new {s' : Store} (h : Applies s entry s')
    (hkeyed : Keyed s) {i : InodeId} {inode : Inode} (hfree : s.inode i = none)
    (hnew : s'.inode i = some inode) : s.next ≤ i := by
  rcases (h.evolves hkeyed).inode hnew with hle | ⟨old, hold, _⟩
  · exact hle
  · rw [hfree] at hold
    cases hold

theorem Applies.block_cases {s' : Store} {block : BlockId}
    (h : Applies s entry s') (hblock : entry.success = some (.blockAllocated block)) :
    ∃ inode inode' file file', s.inode block.inodeId = some inode ∧
      inode.kind = .file file ∧ s'.inode block.inodeId = some inode' ∧
      inode'.kind = .file file' ∧ block.index = file.nextIndex ∧
      file'.nextIndex = file.nextIndex + 1 := by
  rcases h.cases with ⟨success, batch, hsuccess, heffect, rfl⟩ | ⟨hnone, _⟩
  · rw [hblock] at hsuccess
    cases hsuccess
    generalize entry.command = command at heffect
    cases heffect with
    | @blockAllocated i inode file hfile hindex =>
      have hput : (s.applyBatch [.putInode (inode.withFile
          { file with nextIndex := file.nextIndex + 1 })]).inode i =
          some (inode.withFile { file with nextIndex := file.nextIndex + 1 }) := by
        simp [applyBatch, apply, Store.inode, Inode.withFile, hfile.id_eq]
      exact ⟨inode, _, file, _, hfile.inode_eq, hfile.kind_eq, hput, rfl, rfl, rfl⟩
  · rw [hblock] at hnone
    cases hnone

/-- The apply of the entry, on some database with this store, has written the batch. -/
def Writes (t : Transition Store LogApply) (batch : WriteBatch) : Prop :=
  ∃ db db', db.store = t.before ∧ db'.store = t.after ∧
    applyCommitted t.label.command t.label.raftState db = (t.label.outcome, db') ∧
    db'.journal = db.journal ++ [⟨batch, t.label.raftState⟩]

/-- The batch moves the allocator and puts an entry for this id. -/
def GivesId (t : Transition Store LogApply) (i : InodeId) : Prop :=
  ∃ batch next p n, Writes t batch ∧ putNextInodeId next ∈ batch ∧ putDentry p n i ∈ batch

theorem Writes.effect {t : Transition Store LogApply} (h : Writes t batch) :
    batch = [] ∨ ∃ success, Effect t.before t.label.command success batch ∧
      t.after = t.before.applyBatch batch := by
  obtain ⟨db, db', hbefore, hafter, hrun, hjournal⟩ := h
  have hensures := applyCommitted_ensures db t.label.raftState t.label.command
  rw [← hbefore, ← hafter]
  rcases houtcome : t.label.outcome with failure | committed
  · rw [houtcome] at hrun
    obtain ⟨rfl, _⟩ := hensures.of_error hrun
    simp at hjournal
  · rw [houtcome] at hrun
    cases hensures.of_ok hrun with
    | accepted heffect =>
      simp only [Db.commit, List.append_cancel_left_eq, List.cons.injEq, and_true,
        JournalEntry.mk.injEq] at hjournal
      rw [← hjournal]
      exact .inr ⟨_, heffect, rfl⟩
    | rejected =>
      simp only [Db.commit, List.append_cancel_left_eq, List.cons.injEq, and_true,
        JournalEntry.mk.injEq] at hjournal
      exact .inl hjournal.symm

theorem GivesId.bounds {t : Transition Store LogApply} {i : InodeId} (h : GivesId t i)
    (hkeyed : Keyed t.before) : t.before.next ≤ i ∧ i < t.after.next := by
  obtain ⟨batch, next, p, n, hwrites, hnext, hput⟩ := h
  rcases hwrites.effect with rfl | ⟨success, heffect, hafter⟩
  · cases hput
  · rcases heffect.entry_cases hkeyed hput with ⟨_, hnot⟩ | ⟨hle, hlt, _⟩
    · exact absurd hnext (hnot next)
    · rw [hafter]
      exact ⟨hle, hlt⟩

/-- No inode id is given to two created inodes, within one command or over a
whole run, whether the first of them is still there or not, and no block id is returned
twice. -/
theorem Reached.ids_given_once {past : Past} {s : Store} (hrun : Reached past s) :
    (past.Pairwise fun later earlier =>
      (∀ i, GivesId earlier i → ¬GivesId later i) ∧
      (∀ i, earlier.before.inode i = none → earlier.after.inode i ≠ none →
        later.before.inode i = none → later.after.inode i = none) ∧
      ∀ block block', earlier.label.success = some (.blockAllocated block) →
        later.label.success = some (.blockAllocated block') → block ≠ block') ∧
    ∀ t ∈ past, ∀ i, t.before.inode i = none → t.after.inode i ≠ none →
      ∀ p n q m, t.after.dentry p n = some i → t.after.dentry q m = some i → p = q ∧ n = m := by
  constructor
  · apply Run.pairwise_past hrun
    intro past s entry s' hrun _ hstep earlier hearlier
    obtain ⟨older, hbefore, _, hstep'⟩ := Run.of_mem hrun hearlier
    have hkeyed := keyed hbefore
    have hkeyed' := hstep'.keyed hkeyed
    have hevolves := evolves hrun (Run.after_mem_visited hrun hearlier)
    refine ⟨?_, ?_, ?_⟩
    · intro i hgives hgives'
      have hlt := (hgives.bounds hkeyed).2
      have hle := (hgives'.bounds (keyed hrun)).1
      exact absurd (hlt.trans_le (hevolves.next_le.trans hle)) (lt_irrefl i)
    · intro i hfree hnew hfree'
      by_contra hnew'
      obtain ⟨inode, hinode⟩ := Option.ne_none_iff_exists'.1 hnew
      obtain ⟨inode', hinode'⟩ := Option.ne_none_iff_exists'.1 hnew'
      have hlt := hkeyed'.lt_next hinode
      have hle := hstep.next_le_of_new (keyed hrun) hfree' hinode'
      exact absurd (hlt.trans_le (hevolves.next_le.trans hle)) (lt_irrefl i)
    · rintro block block' hblock hblock' rfl
      obtain ⟨_, old, _, file, _, _, hold, hkind, hindex, hcursor⟩ := hstep'.block_cases hblock
      obtain ⟨new, _, file', _, hnew, hkind', _, _, hindex', _⟩ := hstep.block_cases hblock'
      have hversion := hevolves.version hkeyed' hold hnew
      obtain ⟨file'', hkind'', hfile⟩ := hversion.of_file hkind
      rw [hkind'] at hkind''
      cases hkind''
      have := hfile.index_le
      lia
  · intro t ht i hfree hnew p n q m hdentry hdentry'
    obtain ⟨inode, hinode⟩ := Option.ne_none_iff_exists'.1 hnew
    obtain ⟨older, hbefore, _, hstep⟩ := Run.of_mem hrun ht
    have hkeyed := keyed hbefore
    have hle := hstep.next_le_of_new hkeyed hfree hinode
    have hwritten : ∀ {p n}, t.before.dentry p n ≠ some i := by
      intro p n hold
      exact absurd (childrenGiven hbefore p n i hold) (not_lt.2 hle)
    rcases hstep.cases with ⟨success, batch, _, heffect, hafter⟩ | ⟨_, hafter⟩
    · rw [hafter] at hdentry hdentry'
      have hput := (applyBatch_dentry hdentry).resolve_left hwritten
      have hput' := (applyBatch_dentry hdentry').resolve_left hwritten
      rcases heffect.entry_cases hkeyed hput with ⟨⟨old, hold⟩, _⟩ | ⟨_, _, hunique⟩
      · rw [hfree] at hold
        cases hold
      · obtain ⟨rfl, rfl⟩ := hunique q m hput'
        exact ⟨rfl, rfl⟩
    · rw [hafter] at hdentry
      exact absurd hdentry hwritten

theorem ids_given_once_sampleLog :
    let run := healthyRun .empty (.allocateBlock 2 2 :: sampleLog)
    Reached run.1 run.2 ∧
      run.1.map (fun t => t.label.success) = [some (.blockAllocated ⟨2, 1⟩),
        some (.fileCommitted 2 1 2), some (.blockAllocated ⟨2, 0⟩),
        some (.fileCreated 2 sampleLayout 1 20 0),
        some (.mountUpserted (rootMountEntry rootGroup))] ∧
      run.1.Pairwise fun later earlier => ∀ i, earlier.before.inode i = none →
        earlier.after.inode i ≠ none → later.before.inode i = none →
        later.after.inode i = none := by
  intro run
  have hrun : Reached run.1 run.2 := Reached.healthyRun _
  exact ⟨hrun, rfl, (ids_given_once hrun).1.imp fun h => h.2.1⟩

end Beryl
