import Beryl.Publication
import Beryl.Replica

/-!
# What an apply writes to an inode

Every inode a batch puts is either new, with an id taken from the allocator, or a
later version of the inode the store already has under its id.  From this follow
the histories of inodes: ids are never given twice, and versions evolve.
-/

namespace Beryl

open History BatchOp Store OrderedTable DetachedRootReclaimEntry

/-! ## What a batch leaves behind -/

theorem Store.applyBatch_read {α : Type} (read : Store → Option α) (writes : BatchOp → α → Prop)
    (hop : ∀ s op value, read (op.apply s) = some value → read s = some value ∨ writes op value)
    {value : α} (batch : WriteBatch) : ∀ s, read (s.applyBatch batch) = some value →
      read s = some value ∨ ∃ op ∈ batch, writes op value := by
  induction batch with
  | nil => exact fun s h => .inl h
  | cons op rest ih =>
    intro s h
    rcases ih (op.apply s) h with h | ⟨op', hmem, hwrites⟩
    · rcases hop s op value h with h | hwrites
      · exact .inl h
      · exact .inr ⟨op, List.mem_cons_self, hwrites⟩
    · exact .inr ⟨op', List.mem_cons_of_mem _ hmem, hwrites⟩

variable {s s' : Store} {batch eviction : WriteBatch} {i p q base next' : InodeId}
  {inode parent last : Inode} {record : CreateFileReplayRecord} {count t : ℕ} {name : String}
  {attrs : InodeAttrs} {update : DetachedRootReclaimUpdate} {parents : List Inode}
  {command : Command} {success : ApplySuccess} {components : List String}
  {entries : List RecursiveMkdirEntry}

theorem Store.applyBatch_inode (h : (s.applyBatch batch).inode i = some inode) :
    s.inode i = some inode ∨ (BatchOp.putInode inode ∈ batch ∧ inode.inodeId = i) := by
  have hop : ∀ (s : Store) (op : BatchOp) (value : Inode), (op.apply s).inode i = some value →
      s.inode i = some value ∨ (op = .putInode value ∧ value.inodeId = i) := by
    intro s op value hread
    cases op with
    | putInode =>
      rcases get_of_put hread with hread | ⟨rfl, rfl⟩
      · exact .inl hread
      · exact .inr ⟨rfl, rfl⟩
    | deleteInode => exact .inl (get_of_delete hread)
    | _ => exact .inl hread
  rcases applyBatch_read (fun s => s.inode i)
    (fun op value => op = .putInode value ∧ value.inodeId = i) hop batch s h with
    h | ⟨op, hmem, rfl, hid⟩
  · exact .inl h
  · exact .inr ⟨hmem, hid⟩

theorem Store.applyBatch_dentry {c : InodeId} {n : String}
    (h : (s.applyBatch batch).dentry p n = some c) :
    s.dentry p n = some c ∨ BatchOp.putDentry p n c ∈ batch := by
  have hop : ∀ (s : Store) (op : BatchOp) (value : InodeId), (op.apply s).dentry p n = some value →
      s.dentry p n = some value ∨ op = .putDentry p n value := by
    intro s op value hread
    cases op with
    | putDentry =>
      rcases get_of_put hread with hread | ⟨hkey, rfl⟩
      · exact .inl hread
      · obtain ⟨rfl, rfl⟩ := dentryKey_inj.1 hkey
        exact .inr rfl
    | deleteDentry => exact .inl (get_of_delete hread)
    | _ => exact .inl hread
  rcases applyBatch_read (fun s => s.dentry p n)
    (fun op value => op = .putDentry p n value) hop batch s h with h | ⟨op, hmem, rfl⟩
  · exact .inl h
  · exact .inr hmem

/-! ## Inode writes -/

def Store.next (s : Store) : InodeId := s.nextInodeId.getD 0

variable {next : InodeId}

theorem Store.Allocates.next_get (h : s.Allocates next) : s.next = next := by
  rw [Store.next, h.next_eq, Option.getD_some]

/-- The inode is new in `s'`: its id was free and comes from the allocator. -/
structure Made (s s' : Store) (inode : Inode) : Prop where
  next_le : s.next ≤ inode.inodeId
  lt_next : inode.inodeId < s'.next
  pos : 0 < inode.inodeId
  mount_eq : inode.mountId = rootMountId

inductive InodeWrite (s s' : Store) (command : Command) (batch : WriteBatch) :
    Inode → Prop
  | directory {inode : Inode} (hmade : Made s s' inode) (hdir : inode.kind = .dir) :
      InodeWrite s s' command batch inode
  | newFile {i : InodeId} {attrs : InodeAttrs} {layout : FileLayout}
      (hmade : Made s s' (newLeasedFile i attrs rootMountId layout))
      (hlayout : layout.validate = .ok ()) :
      InodeWrite s s' command batch (newLeasedFile i attrs rootMountId layout)
  | touched {inode : Inode} {t : ℕ} (hinode : s.inode inode.inodeId = some inode) :
      InodeWrite s s' command batch (touchParent inode t)
  | leased {i : InodeId} {inode : Inode} {file : FileData}
      (hfile : FileAt s i inode file) :
      InodeWrite s s' command batch
        (inode.withFile { file with leaseEpoch := file.leaseEpoch + 1 })
  | allocated {i : InodeId} {inode : Inode} {file : FileData}
      (hfile : FileAt s i inode file) :
      InodeWrite s s' command batch (inode.withFile { file with nextIndex := file.nextIndex + 1 })
  | published {i : InodeId} {inode : Inode} {file : FileData} {t : ℕ}
      {publication : FilePublication} {prepared : PreparedPublication}
      (hfile : FileAt s i inode file)
      (hpublished : Published inode publication t prepared)
      (hbatch : batch = [.putInode prepared.inode]) :
      InodeWrite s s' command batch prepared.inode
  | committed {i : InodeId} {inode : Inode} {file file' : FileData} {t : ℕ}
      {clientId : ClientId} {callId : CallId} {publication : FilePublication}
      {prepared : PreparedPublication} (hfile : FileAt s i inode file)
      (hcommand : command = .commitFile t i clientId callId publication)
      (hresolve : publication.resolveCommit inode clientId callId = .ok none)
      (hpublished : Published inode publication t prepared)
      (hkind : prepared.inode.kind = .file file')
      (hbound : publication.leaseEpoch + 1 < 2 ^ 64)
      (hbatch : batch = [.putInode (prepared.inode.withFile
        { file' with
          leaseEpoch := publication.leaseEpoch + 1
          lastCommit := some
            (publication.evidence clientId callId prepared.generation) })]) :
      InodeWrite s s' command batch (prepared.inode.withFile
        { file' with
          leaseEpoch := publication.leaseEpoch + 1
          lastCommit := some
            (publication.evidence clientId callId prepared.generation) })

/-! ## The next id after a batch -/

def KeepsNext (batch : WriteBatch) : Prop := ∀ id, BatchOp.putNextInodeId id ∉ batch

theorem Store.applyBatch_next (h : KeepsNext batch) :
    (s.applyBatch batch).nextInodeId = s.nextInodeId := by
  induction batch generalizing s with
  | nil => rfl
  | cons op rest ih =>
    have hrest : KeepsNext rest := fun id hid => h id (List.mem_cons_of_mem _ hid)
    rw [applyBatch_cons, ih hrest]
    cases op with
    | putNextInodeId id => exact absurd List.mem_cons_self (h id)
    | _ => rfl

theorem Store.applyBatch_putNext {rest : WriteBatch} (h : KeepsNext rest) :
    (s.applyBatch (batch ++ [.putNextInodeId next] ++ rest)).nextInodeId = some next := by
  rw [applyBatch_append, applyBatch_next h, applyBatch_append]
  rfl

theorem keepsNext_recordOps : KeepsNext (recordOps record count) := by
  intro id hid
  simp [recordOps] at hid

theorem ReplayRoom.keepsNext (h : ReplayRoom s t eviction count) : KeepsNext eviction := by
  intro id hid
  cases h with
  | free => cases hid
  | evict => simp [evictionOps] at hid

variable {layout : FileLayout}

theorem Store.applyBatch_createFileOps (hroom : ReplayRoom s t eviction count) :
    (s.applyBatch (createFileOps parent name next attrs layout t eviction record
      count)).nextInodeId = some (next + 1) := by
  unfold createFileOps
  rw [List.append_assoc]
  refine applyBatch_putNext fun id hid => ?_
  rcases List.mem_append.1 hid with hid | hid
  · exact hroom.keepsNext id hid
  · exact keepsNext_recordOps id hid

def BatchOp.Reclaims : BatchOp → Prop
  | deleteDentry _ _ => True
  | deleteInode _ => True
  | putDetachedRoot _ _ => True
  | deleteDetachedRoot _ => True
  | _ => False

theorem DetachedRootReclaimUpdate.reclaims {op : BatchOp} (h : op ∈ update.ops) : op.Reclaims := by
  rcases List.mem_append.1 h with h | h
  · obtain ⟨entry, _, h⟩ := List.mem_flatMap.1 h
    cases hchild : entry.childDetachedRoot <;>
      simp only [DetachedRootReclaimEntry.ops, hchild, List.mem_cons, List.not_mem_nil,
        or_false] at h <;>
      rcases h with rfl | rfl <;> trivial
  · obtain ⟨root, _, h⟩ := List.mem_flatMap.1 h
    simp only [List.mem_cons, List.not_mem_nil, or_false] at h
    rcases h with rfl | rfl <;> trivial

theorem ReclaimPlan.marker_put {candidates : List InodeId} {maxEntries : ℕ}
    (hplan : ReclaimPlan s candidates maxEntries update) {root : DetachedRoot}
    (hput : BatchOp.putDetachedRoot i root ∈ update.ops) :
    ∃ p n, s.marker p = some root ∧ s.dentry p n = some i := by
  rcases List.mem_append.1 hput with hput | hput
  · obtain ⟨entry, hentry, hput⟩ := List.mem_flatMap.1 hput
    obtain ⟨marker, child, hmarker, hdentry, _, _, _, hchild⟩ :=
      (hplan.entries_ok entry hentry).exists_child
    unfold ops at hput
    split at hput
    next root' hroot =>
      simp only [List.mem_cons, putDetachedRoot.injEq, reduceCtorEq, List.not_mem_nil, or_false,
        false_or] at hput
      obtain ⟨rfl, rfl⟩ := hput
      rw [hroot] at hchild
      split at hchild
      · cases hchild
        exact ⟨_, _, hmarker, hdentry⟩
      · cases hchild
    next => simp at hput
  · obtain ⟨completed, _, hput⟩ := List.mem_flatMap.1 hput
    simp at hput

theorem keepsNext_reclaim : KeepsNext update.ops := fun _ hid => update.reclaims hid

variable {overwritten : Option InodeId} {name' : String}

theorem keepsNext_renameOps {x : InodeId} :
    KeepsNext (renameOps p name q name' x overwritten parents) := by
  intro id hid
  cases overwritten <;> simp [renameOps] at hid

/-- The allocator after an effect: unchanged, moved past the ids it gave out, or
started by bootstrap. -/
theorem Effect.next_cases (h : Effect s command success batch) :
    KeepsNext batch ∨ (∃ next next', s.Allocates next ∧ next ≤ next' ∧
      (s.applyBatch batch).nextInodeId = some next') ∨
    (s.nextInodeId = none ∧ (s.applyBatch batch).nextInodeId = some 2) := by
  cases h with
  | bootstrapped _ _ hnext => exact .inr (.inr ⟨hnext, rfl⟩)
  | directoryMade _ _ _ halloc =>
    refine .inr (.inl ⟨_, _, halloc, Nat.le_succ _, ?_⟩)
    have hnil : KeepsNext [] := fun id hid => by cases hid
    simpa using applyBatch_putNext (s := s) hnil
  | directoriesMade _ _ _ halloc hplan =>
    obtain ⟨_, hnext, _⟩ := hplan.ids
    unfold directoriesOps
    split
    · exact .inl fun id hid => by cases hid
    · refine .inr (.inl ⟨_, _, halloc, hnext ▸ Nat.le_add_right _ _, ?_⟩)
      rw [applyBatch_append]
      rfl
  | fileMade _ _ _ _ _ _ halloc hroom =>
    exact .inr (.inl ⟨_, _, halloc, Nat.le_succ _, applyBatch_createFileOps hroom⟩)
  | renameUnchanged | renamed => exact .inl keepsNext_renameOps
  | reclaimed => exact .inl keepsNext_reclaim
  | _ => exact .inl fun id hid => by simp at hid

theorem Effect.next_le (h : Effect s command success batch) :
    s.next ≤ (s.applyBatch batch).next := by
  rcases h.next_cases with hkeeps | ⟨next, next', halloc, hle, hnext⟩ | ⟨hnone, _⟩
  · rw [Store.next, Store.next, applyBatch_next hkeeps]
  · rw [halloc.next_get, Store.next, hnext]
    exact hle
  · rw [Store.next, hnone]
    exact Nat.zero_le _

/-! ## Every put is an inode write -/

/-- A directory that a recursive mkdir plans, with an id from `base` to `next`. -/
structure Planned (base next : InodeId) (inode : Inode) : Prop where
  is_dir : inode.kind = .dir
  base_le : base ≤ inode.inodeId
  lt_next : inode.inodeId < next
  mount_eq : inode.mountId = rootMountId

theorem Planned.mono (h : Planned base next inode) (hle : next ≤ next') :
    Planned base next' inode :=
  { h with lt_next := h.lt_next.trans_le hle }

/-- A directory under which a recursive mkdir creates: stored, or planned. -/
def PlannedParent (s : Store) (base next : InodeId) (parent : Inode) : Prop :=
  s.inode parent.inodeId = some parent ∨ Planned base next parent

theorem DirectoryPlan.entry_cases (hkeyed : Keyed s) (hbase : base ≤ next)
    (hplan : DirectoryPlan s attrs t parent next components last next' entries)
    (hparent : PlannedParent s base next parent) :
    next ≤ next' ∧ ∀ entry ∈ entries, Planned base next' entry.inode ∧
      ∃ parent, PlannedParent s base next' parent ∧ entry.updatedParent = touchParent parent t := by
  induction hplan with
  | done => exact ⟨le_rfl, fun _ h => by cases h⟩
  | enter hdentry hinode hdir _ ih =>
    refine ih hbase (.inl ?_)
    rw [hkeyed.inodeId_eq hinode]
    exact hinode
  | @create parent last next next' name rest entries hdentry _ ih =>
    have hmount : parent.mountId = rootMountId := by
      rcases hparent with hstored | hplanned
      · exact hkeyed.mountId_eq hstored
      · exact hplanned.mount_eq
    have hchild : Planned base (next + 1)
        (Inode.newDir next (InodeAttrs.initializeAt attrs t) parent.mountId) :=
      ⟨rfl, hbase, Nat.lt_succ_self _, hmount⟩
    obtain ⟨hle, hrest⟩ := ih (hbase.trans (Nat.le_succ _)) (.inr hchild)
    refine ⟨(Nat.le_succ _).trans hle, fun entry hentry => ?_⟩
    rcases List.mem_cons.1 hentry with rfl | hentry
    · exact ⟨hchild.mono hle, parent,
        hparent.imp_right fun h => h.mono ((Nat.le_succ _).trans hle), rfl⟩
    · exact hrest entry hentry

theorem DirectoryPlan.planned {next rootInodeId : InodeId} {root : Inode} (hkeyed : Keyed s)
    (hroot : s.inode rootInodeId = some root)
    (hplan : DirectoryPlan s attrs t root next components last next' entries) :
    ∀ entry ∈ entries, Planned next next' entry.inode ∧
      ∃ parent, PlannedParent s next next' parent ∧ entry.updatedParent = touchParent parent t := by
  have hparent : PlannedParent s next next root := by
    rw [← hkeyed.inodeId_eq hroot] at hroot
    exact .inl hroot
  exact (hplan.entry_cases hkeyed le_rfl hparent).2

theorem Planned.made (halloc : s.Allocates base) (hnext : s'.nextInodeId = some next')
    (h : Planned base next' inode) : Made s s' inode where
  next_le := halloc.next_get.trans_le h.base_le
  lt_next := by
    rw [next, hnext]
    exact h.lt_next
  pos := lt_of_lt_of_le two_pos (halloc.two_le.trans h.base_le)
  mount_eq := h.mount_eq

theorem PlannedParent.write (halloc : s.Allocates base) (hnext : s'.nextInodeId = some next')
    (h : PlannedParent s base next' parent) (t : ℕ) :
    InodeWrite s s' command batch (touchParent parent t) := by
  rcases h with hstored | hplanned
  · exact .touched hstored
  · have hmade := hplanned.made halloc hnext
    exact .directory ⟨hmade.next_le, hmade.lt_next, hmade.pos, hmade.mount_eq⟩ hplanned.is_dir

theorem DirectoryPlan.write {next rootInodeId : InodeId} {root : Inode} (hkeyed : Keyed s)
    (halloc : s.Allocates next) (hroot : s.inode rootInodeId = some root)
    (hplan : DirectoryPlan s attrs t root next components last next' entries)
    (hnext : s'.nextInodeId = some next')
    (hput : BatchOp.putInode inode ∈ entries.flatMap RecursiveMkdirEntry.ops) :
    InodeWrite s s' command batch inode := by
  obtain ⟨entry, hentry, hput⟩ := List.mem_flatMap.1 hput
  obtain ⟨hplanned, parent, hparent, hupdated⟩ := hplan.planned hkeyed hroot entry hentry
  simp only [RecursiveMkdirEntry.ops, createEntryOps, List.mem_cons, putInode.injEq, reduceCtorEq,
    List.not_mem_nil, or_false] at hput
  rcases hput with rfl | rfl
  · exact .directory (hplanned.made halloc hnext) hplanned.is_dir
  · rw [hupdated]
    exact hparent.write halloc hnext t

theorem RenameParents.write (hkeyed : Keyed s) (h : RenameParents s t p q parents)
    (hmem : inode ∈ parents) : InodeWrite s s' command batch inode := by
  have htouched : ∀ {i parent}, s.inode i = some parent →
      InodeWrite s s' command batch (touchParent parent t) := by
    intro i parent hparent
    refine .touched ?_
    rw [hkeyed.inodeId_eq hparent]
    exact hparent
  cases h with
  | same _ hparent =>
    rw [List.mem_singleton.1 hmem]
    exact htouched hparent
  | different _ hsrc hdst =>
    rcases List.mem_cons.1 hmem with rfl | hmem
    · exact htouched hsrc
    · rw [List.mem_singleton.1 hmem]
      exact htouched hdst

theorem putInode_mem_renameOps {x : InodeId}
    (h : putInode inode ∈ renameOps p name q name' x overwritten parents) : inode ∈ parents := by
  cases overwritten <;> simpa [renameOps] using h

theorem putInode_mem_createFileOps (hroom : ReplayRoom s t eviction count)
    (h : putInode inode ∈ createFileOps parent name next attrs layout t eviction record
      count) : inode = newLeasedFile next (InodeAttrs.initializeAt attrs t) parent.mountId layout ∨
      inode = touchParent parent t := by
  cases hroom with
  | free => simpa [createFileOps, createEntryOps, recordOps] using h
  | evict => simpa [createFileOps, createEntryOps, recordOps, evictionOps] using h

theorem putInode_notMem_reclaim : putInode inode ∉ update.ops := fun h => update.reclaims h

theorem putDentry_notMem_reclaim {c : InodeId} {n : String} :
    putDentry p n c ∉ update.ops := fun h => update.reclaims h

theorem Effect.write (hkeyed : Keyed s) (h : Effect s command success batch)
    (hput : putInode inode ∈ batch) : InodeWrite s (s.applyBatch batch) command batch inode := by
  have htarget : ∀ {root components parent name child t},
      DeleteTarget s root components parent name child →
      InodeWrite s (s.applyBatch batch) command batch (touchParent parent t) :=
    fun htarget => .touched htarget.parent_eq.1
  cases h with
  | bootstrapped _ _ hnext =>
    simp only [bootstrapOps, List.mem_cons, putInode.injEq, reduceCtorEq, List.not_mem_nil,
      or_false] at hput
    subst hput
    refine .directory ⟨?_, ?_, one_pos, rfl⟩ rfl
    · rw [Store.next, hnext]
      exact Nat.zero_le _
    · exact Nat.lt_succ_self 1
  | @directoryMade t p next name attrs parent hparent hdir _ halloc =>
    have hnext : (s.applyBatch (createEntryOps p name
        (Inode.newDir next (InodeAttrs.initializeAt attrs t) parent.mountId)
        (touchParent parent t) ++ [.putNextInodeId (next + 1)])).nextInodeId =
        some (next + 1) := rfl
    simp only [createEntryOps, List.cons_append, List.nil_append, List.mem_cons, putInode.injEq,
      reduceCtorEq, List.not_mem_nil, or_false] at hput
    have hmount := hkeyed.mountId_eq hparent
    rcases hput with rfl | rfl
    · exact .directory (Planned.made halloc hnext ⟨rfl, le_rfl, Nat.lt_succ_self _, hmount⟩) rfl
    · refine .touched ?_
      rw [hkeyed.inodeId_eq hparent]
      exact hparent
  | @directoriesMade _ _ next next' _ _ _ _ entries hroot _ _ halloc hplan =>
    unfold directoriesOps at hput ⊢
    split at hput
    · cases hput
    next hentries =>
      rw [if_neg hentries]
      refine hplan.write hkeyed halloc hroot ?_ ?_
      · rw [applyBatch_append]
        rfl
      · simpa using hput
  | @fileMade t _ _ _ _ _ _ _ _ next _ attrs layout parent record eviction count _ _ _
      hlayout hparent _ halloc hroom _ =>
      have hmount := hkeyed.mountId_eq hparent.parent_eq.1
      rcases putInode_mem_createFileOps hroom hput with rfl | rfl
      · rw [hmount]
        refine .newFile ⟨halloc.next_get.le, ?_, ?_, rfl⟩ hlayout
        · rw [Store.next, applyBatch_createFileOps hroom]
          exact Nat.lt_succ_self _
        · exact lt_of_lt_of_le two_pos halloc.two_le
      · exact .touched hparent.parent_eq.1
  | unlinked htarget' | directoryRemoved htarget' | directoryDetached htarget' =>
    simp only [List.mem_cons, putInode.injEq, reduceCtorEq, List.not_mem_nil, or_false,
      false_or] at hput
    subst hput
    exact htarget htarget'
  | renameUnchanged => exact absurd (putInode_mem_renameOps hput) List.not_mem_nil
  | renamed _ _ _ _ hparents => exact hparents.write hkeyed (putInode_mem_renameOps hput)
  | leaseAcquired hfile | leaseEnded hfile =>
    obtain rfl := putInode.inj (List.mem_singleton.1 hput)
    exact .leased hfile
  | blockAllocated hfile =>
    obtain rfl := putInode.inj (List.mem_singleton.1 hput)
    exact .allocated hfile
  | filePublished hfile hprepared =>
    obtain rfl := putInode.inj (List.mem_singleton.1 hput)
    exact .published hfile (prepareFilePublication_ok hprepared) rfl
  | fileCommitted hfile hresolve _ hbound hprepared hpublished =>
    obtain rfl := putInode.inj (List.mem_singleton.1 hput)
    exact .committed hfile rfl hresolve (prepareFilePublication_ok hprepared) hpublished hbound rfl
  | reclaimed => exact absurd hput putInode_notMem_reclaim
  | _ => simp at hput

/-! ## Versions -/

theorem InodeWrite.cases (h : InodeWrite s s' command batch inode) :
    Made s s' inode ∨ ∃ old, s.inode inode.inodeId = some old ∧ old.Evolves inode := by
  have hstored : ∀ {i old file}, FileAt s i old file → s.inode old.inodeId = some old := by
    intro i old file hfile
    rw [hfile.id_eq]
    exact hfile.inode_eq
  cases h with
  | directory hmade | newFile hmade => exact .inl hmade
  | touched hinode => exact .inr ⟨_, hinode, touchParent_evolves _ _⟩
  | @leased _ inode _ hfile =>
    have hinode : s.inode inode.inodeId = some inode := hstored hfile
    refine .inr ⟨inode, hinode, rfl, rfl, le_rfl, ?_⟩
    rw [hfile.kind_eq]
    exact .file ⟨rfl, Nat.le_succ _, le_rfl, le_rfl, fun _ => ⟨rfl, rfl⟩⟩
  | @allocated _ inode _ hfile =>
    have hinode : s.inode inode.inodeId = some inode := hstored hfile
    refine .inr ⟨inode, hinode, rfl, rfl, le_rfl, ?_⟩
    rw [hfile.kind_eq]
    exact .file ⟨rfl, le_rfl, le_rfl, Nat.le_succ _, fun _ => ⟨rfl, rfl⟩⟩
  | published hfile hpublished =>
    refine .inr ⟨_, ?_, hpublished.evolves⟩
    rw [hpublished.inodeId_eq]
    exact hstored hfile
  | @committed i inode file file' t _ _ publication prepared hfile _ _ hpublished hkind _ _ =>
    have hevolves := hpublished.evolves
    obtain ⟨file'', hkind', hfile'⟩ := hevolves.of_file hfile.kind_eq
    rw [hkind] at hkind'
    cases hkind'
    have hepoch := hpublished.epoch_eq hfile.kind_eq
    refine .inr ⟨inode, ?_, hevolves.mount_eq, hevolves.create_eq, hevolves.modify_le, ?_⟩
    · simp only [Inode.withFile]
      rw [hpublished.inodeId_eq]
      exact hstored hfile
    · rw [hfile.kind_eq]
      exact .file ⟨hfile'.layout_eq, by simp only; lia, hfile'.generation_le,
        hfile'.index_le, hfile'.content_eq⟩

/-- Every inode of the later store is new or follows its earlier version. -/
structure Store.Evolves (s s' : Store) : Prop where
  next_le : s.next ≤ s'.next
  inode : ∀ {i new}, s'.inode i = some new →
    s.next ≤ i ∨ ∃ old, s.inode i = some old ∧ old.Evolves new

theorem Store.Evolves.refl (s : Store) : s.Evolves s :=
  ⟨le_rfl, fun h => .inr ⟨_, h, .refl _⟩⟩

theorem Store.Evolves.trans {mid : Store} (hmid : s.Evolves mid) (hnew : mid.Evolves s') :
    s.Evolves s' where
  next_le := hmid.next_le.trans hnew.next_le
  inode hinode := by
    rcases hnew.inode hinode with hle | ⟨old, hold, hevolves⟩
    · exact .inl (hmid.next_le.trans hle)
    · rcases hmid.inode hold with hle | ⟨older, holder, hevolves'⟩
      · exact .inl hle
      · exact .inr ⟨older, holder, hevolves'.trans hevolves⟩

theorem Store.exists_next (h : i < s.next) : ∃ next, s.nextInodeId = some next ∧ i < next := by
  unfold next at h
  cases hnext : s.nextInodeId with
  | none =>
    rw [hnext] at h
    exact absurd h (Nat.not_lt_zero _)
  | some next =>
    rw [hnext] at h
    exact ⟨next, rfl, h⟩

theorem Keyed.lt_next (h : Keyed s) (hinode : s.inode i = some inode) : i < s.next := by
  obtain ⟨next, hnext, hlt⟩ := h.inode_lt_next hinode
  rw [Store.next, hnext]
  exact hlt

theorem Store.Evolves.version (h : s.Evolves s') (hkeyed : Keyed s) {old new : Inode}
    (hold : s.inode i = some old) (hnew : s'.inode i = some new) : old.Evolves new := by
  rcases h.inode hnew with hle | ⟨old', hold', hevolves⟩
  · exact absurd (hkeyed.lt_next hold) (not_lt.2 hle)
  · rw [hold] at hold'
    cases hold'
    exact hevolves

theorem Effect.evolves (hkeyed : Keyed s) (h : Effect s command success batch) :
    s.Evolves (s.applyBatch batch) where
  next_le := h.next_le
  inode hinode := by
    rcases applyBatch_inode hinode with hold | ⟨hput, rfl⟩
    · exact .inr ⟨_, hold, .refl _⟩
    · rcases (h.write hkeyed hput).cases with hmade | hevolves
      · exact .inl hmade.next_le
      · exact .inr hevolves

theorem Effect.keyed (hkeyed : Keyed s) (h : Effect s command success batch) :
    Keyed (s.applyBatch batch) := by
  have hcases : ∀ {i inode}, (s.applyBatch batch).inode i = some inode →
      inode.inodeId = i ∧ 0 < i ∧ i < (s.applyBatch batch).next ∧
        inode.mountId = rootMountId := by
    intro i inode hinode
    rcases applyBatch_inode hinode with hold | ⟨hput, rfl⟩
    · exact ⟨hkeyed.inodeId_eq hold, hkeyed.inode_pos hold,
        (hkeyed.lt_next hold).trans_le h.next_le, hkeyed.mountId_eq hold⟩
    · rcases (h.write hkeyed hput).cases with hmade | ⟨old, hold, hevolves⟩
      · exact ⟨rfl, hmade.pos, hmade.lt_next, hmade.mount_eq⟩
      · exact ⟨rfl, hkeyed.inode_pos hold, (hkeyed.lt_next hold).trans_le h.next_le,
          hevolves.mount_eq.trans (hkeyed.mountId_eq hold)⟩
  refine ⟨fun hi => (hcases hi).1, fun hi => (hcases hi).2.1, fun hi => ?_, ?_,
    fun hi => (hcases hi).2.2.2⟩
  · exact exists_next (hcases hi).2.2.1
  · intro next hnext
    rcases h.next_cases with hkeeps | ⟨base, next', halloc, hle, hnext'⟩ | ⟨_, hnext'⟩
    · rw [applyBatch_next hkeeps] at hnext
      exact hkeyed.two_le_next hnext
    · rw [hnext'] at hnext
      cases hnext
      exact halloc.two_le.trans hle
    · rw [hnext'] at hnext
      cases hnext
      exact le_rfl

theorem Keyed.empty : Keyed Store.empty := by
  constructor <;> simp [Store.empty, Store.inode]

variable {entry : LogApply}

theorem Applies.keyed (h : Applies s entry s') (hkeyed : Keyed s) : Keyed s' := by
  rcases h.cases with ⟨success, batch, _, heffect, rfl⟩ | ⟨_, rfl⟩
  · exact heffect.keyed hkeyed
  · exact hkeyed

theorem Applies.evolves (h : Applies s entry s') (hkeyed : Keyed s) : s.Evolves s' := by
  rcases h.cases with ⟨success, batch, _, heffect, rfl⟩ | ⟨_, rfl⟩
  · exact heffect.evolves hkeyed
  · exact .refl _

section Runs

variable {admits : Past → Store → LogApply → Prop} {start s t : Store} {past : Past}

theorem keyed_of_run (h : Run Applies admits start past s) (hstart : Keyed start) : Keyed s :=
  Run.invariant h hstart fun _ hkeyed _ hstep => hstep.keyed hkeyed

theorem evolves_of_run (h : Run Applies admits start past s) (hstart : Keyed start)
    (ht : t ∈ visited past s) : t.Evolves s :=
  Run.relates h .refl .trans
    (fun hrun _ hstep => hstep.evolves (keyed_of_run hrun hstart)) ht

theorem Reached.keyed (h : Reached past s) : Keyed s := keyed_of_run h .empty

theorem Reached.evolves (h : Reached past s) (ht : t ∈ visited past s) : t.Evolves s :=
  evolves_of_run h .empty ht

end Runs

end Beryl
