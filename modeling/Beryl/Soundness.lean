import Beryl.Allocation
import Beryl.LeaderCommands

/-!
# Soundness of leader-built runs

Along every run of leader-built commands, each built from some earlier store of
the same run, all invariants of the store hold together.
-/

namespace Beryl

open History Store ReplayTable CreateFileReplayRecord

/-! ## Names -/

variable {s u : Store} {batch : WriteBatch}

theorem DirectoryPlan.name_mem {attrs : InodeAttrs} {t : ℕ} {next next' : InodeId}
    {parent last : Inode} {components : List String} {entries : List RecursiveMkdirEntry}
    (hplan : DirectoryPlan s attrs t parent next components last next' entries) :
    ∀ entry ∈ entries, entry.name ∈ components := by
  induction hplan with
  | done => simp
  | enter _ _ _ _ ih =>
    intro entry hentry
    exact List.mem_cons_of_mem _ (ih entry hentry)
  | create _ _ ih =>
    intro entry hentry
    rcases List.mem_cons.1 hentry with rfl | hentry
    · exact List.mem_cons_self
    · exact List.mem_cons_of_mem _ (ih entry hentry)

theorem Effect.name_valid {command : Command} {success : ApplySuccess}
    (h : Effect s command success batch) (hbuilt : command.BuiltIn u) {p c : InodeId} {n : String}
    (hput : BatchOp.putDentry p n c ∈ batch) : ValidName n := by
  cases h with
  | bootstrapped => simp [bootstrapOps] at hput
  | directoryMade =>
    obtain ⟨_, rfl, _⟩ := putDentry_mem_createEntryOps hput
    exact hbuilt.2 n List.mem_cons_self
  | directoriesMade _ _ _ _ hplan =>
    obtain ⟨entry, hentry, _, rfl, _⟩ := putDentry_mem_directories hput
    exact hbuilt.2 _ (hplan.name_mem entry hentry)
  | fileMade _ _ _ _ hparent _ _ hroom =>
    obtain ⟨_, rfl, _⟩ := putDentry_mem_createFileOps hroom hput
    exact hparent.valid_name
  | renameUnchanged | renamed =>
    obtain ⟨_, rfl, _⟩ := putDentry_mem_renameOps hput
    exact hbuilt.2.2.1
  | reclaimed => exact absurd hput putDentry_notMem_reclaim
  | _ => simp at hput

theorem Effect.namesValid {command : Command} {success : ApplySuccess} (hnames : NamesValid s)
    (h : Effect s command success batch) (hbuilt : command.BuiltIn u) :
    NamesValid (s.applyBatch batch) := by
  intro p n c hdentry
  rcases applyBatch_dentry hdentry with hbefore | hput
  · exact hnames hbefore
  · exact h.name_valid hbuilt hput

/-! ## Replay records -/

structure CreateRequest where
  proposedAtMs : ℕ
  operationId : CreateFileOperationId
  requestDeadlineMs : ℕ
  sessionExpiresAtMs : ℕ
  mountRootInodeId : InodeId
  relativeComponents : List String
deriving DecidableEq

def Command.createRequest : Command → Option CreateRequest
  | .createFile proposedAtMs operationId requestDeadlineMs sessionExpiresAtMs _ _ _
      mountRootInodeId relativeComponents _ _ =>
      some ⟨proposedAtMs, operationId, requestDeadlineMs, sessionExpiresAtMs, mountRootInodeId,
        relativeComponents⟩
  | _ => none

def BatchOp.KeepsReplay : BatchOp → Prop
  | putReplay _ => False
  | deleteReplay _ => False
  | putReplayInode _ _ => False
  | deleteReplayInode _ => False
  | putReplayExpiry _ _ => False
  | deleteReplayExpiry _ _ => False
  | putReplayCount _ => False
  | _ => True

theorem replay_applyBatch : ∀ {s : Store}, (∀ op ∈ batch, op.KeepsReplay) →
      (s.applyBatch batch).replayTable = s.replayTable ∧
        (s.applyBatch batch).createFileReplayCount = s.createFileReplayCount := by
  induction batch with
  | nil => exact fun _ => ⟨rfl, rfl⟩
  | cons op rest ih =>
    intro s h
    obtain ⟨htable, hcount⟩ := ih (s := op.apply s) fun op hop => h op (List.mem_cons_of_mem _ hop)
    have hop := h op List.mem_cons_self
    rw [applyBatch_cons, htable, hcount]
    cases op <;> first | exact hop.elim | exact ⟨rfl, rfl⟩

theorem ReplayRoom.evicts {t count : ℕ} {eviction : WriteBatch}
    (h : ReplayRoom s t eviction count) (hreplay : ReplaySound s)
    (hu : u.replayTable = s.replayTable) : (u.applyBatch eviction).replayTable.Consistent ∧
    (u.applyBatch eviction).createFileReplay.entries.length + 1 = count ∧
    count ≤ maxCreateFileReplayRecords ∧
    (∀ {key record}, (u.applyBatch eviction).createFileReplay.get key = some record →
      s.createFileReplay.get key = some record) ∧
    ∀ {i operationId}, (u.applyBatch eviction).createFileReplayInode.get i =
      some operationId → s.createFileReplayInode.get i = some operationId := by
  have hrecords : u.createFileReplay = s.createFileReplay := congrArg records hu
  have hinodes : u.createFileReplayInode = s.createFileReplayInode := congrArg byInode hu
  have hcount := hreplay.count_eq
  cases h with
  | free hlt =>
    rw [applyBatch_nil, hu, hrecords, hinodes, hcount]
    refine ⟨hreplay.toConsistent, rfl, ?_, fun h => h, fun h => h⟩
    rw [hcount] at hlt
    exact hlt
  | @evict record expiresAtMs hfull hfirst _ hrecord _ =>
    have hexpiry : s.createFileReplayExpiry.get
        (expiryKey expiresAtMs record.operationId) = some () :=
      s.createFileReplayExpiry.mem_entries_iff.1 (List.mem_of_head? hfirst)
    obtain ⟨other, hother, hexpires⟩ := hreplay.expiry_record hexpiry
    rw [hrecord] at hother
    cases hother
    have htable : (u.applyBatch (evictionOps expiresAtMs record)).replayTable =
        s.replayTable.evict record := by
      rw [← hu, ← hexpires]
      rfl
    have hlength := OrderedTable.length_delete hrecord
    have hrecords' : (u.applyBatch (evictionOps expiresAtMs record)).createFileReplay =
        (s.replayTable.evict record).records := congrArg records htable
    have hinodes' : (u.applyBatch (evictionOps expiresAtMs record)).createFileReplayInode =
        (s.replayTable.evict record).byInode := congrArg byInode htable
    rw [htable, hrecords', hinodes']
    refine ⟨hreplay.toConsistent.evict hrecord, ?_, le_rfl, ?_, ?_⟩
    · rw [← hfull, hcount]
      exact hlength
    · exact fun hother => (evict_records.1 hother).2
    · exact fun hindex => (evict_byInode.1 hindex).2

section

variable {s : Store} {command : Command} {success : ApplySuccess} {batch : WriteBatch}

theorem ReplaySound.lt_next (h : ReplaySound s) {i : InodeId} {operationId : CreateFileOperationId}
    (hindex : s.createFileReplayInode.get i = some operationId) : i < s.next := by
  obtain ⟨next, hnext, hlt⟩ := h.index_lt_next hindex
  rw [Store.next, hnext]
  exact hlt

theorem ReplaySound.layout_evolves {s' : Store} (h : ReplaySound s)
    (hevolves : s.Evolves s') {key : ReplayKey} {record : CreateFileReplayRecord}
    {inode : Inode} (hrecord : s.createFileReplay.get key = some record)
    (hinode : s'.inode record.inodeId = some inode) :
    ∃ file, inode.kind = .file file ∧ file.layout = record.layout := by
  rcases hevolves.inode hinode with hfresh | ⟨old, hold, hversion⟩
  · exact absurd (h.lt_next (h.record_indexed hrecord)) (not_lt.2 hfresh)
  · obtain ⟨file, hkind, hlayout⟩ := h.record_layout hrecord hold
    obtain ⟨file', hkind', hfile⟩ := hversion.of_file hkind
    exact ⟨file', hkind', hfile.layout_eq.trans hlayout⟩

theorem ReplaySound.of_keeps {s' : Store} (h : ReplaySound s)
    (htable : s'.replayTable = s.replayTable)
    (hcount : s'.createFileReplayCount = s.createFileReplayCount)
    (hevolves : s.Evolves s') : ReplaySound s' := by
  have hrecords : s'.createFileReplay = s.createFileReplay := congrArg records htable
  have hinodes : s'.createFileReplayInode = s.createFileReplayInode := congrArg byInode htable
  refine { (htable ▸ h.toConsistent : s'.replayTable.Consistent) with
    index_lt_next := ?_, count_eq := ?_, count_le := ?_, record_layout := ?_ }
  · intro i operationId hindex
    rw [hinodes] at hindex
    exact exists_next ((h.lt_next hindex).trans_le hevolves.next_le)
  · rw [hcount, hrecords]
    exact h.count_eq
  · rw [hrecords]
    exact h.count_le
  · intro key record inode hrecord hinode
    rw [hrecords] at hrecord
    exact h.layout_evolves hevolves hrecord hinode

/-- A file creation that passed its checks: what it writes and what it knows. -/
structure FileCreation (s : Store) where
  proposedAtMs : ℕ
  parent : Inode
  name : String
  attrs : InodeAttrs
  eviction : WriteBatch
  record : CreateFileReplayRecord
  count : ℕ
  isNew : s.createFileReplay.get record.operationId.key = none
  inDeadline : proposedAtMs ≤ record.requestDeadlineMs
  live : proposedAtMs < record.expiresAtMs
  allocates : s.Allocates record.inodeId
  target : CreateParent s record.mountRootInodeId record.relativeComponents parent name
  room : ReplayRoom s proposedAtMs eviction count

namespace FileCreation

def request (c : FileCreation s) : CreateRequest :=
  ⟨c.proposedAtMs, c.record.operationId, c.record.requestDeadlineMs, c.record.expiresAtMs,
    c.record.mountRootInodeId, c.record.relativeComponents⟩

def ops (c : FileCreation s) : WriteBatch :=
  createFileOps c.parent c.name c.record.inodeId c.attrs c.record.layout c.proposedAtMs
    c.eviction c.record c.count

def evicted (c : FileCreation s) : Store :=
  (s.applyBatch (createEntryOps c.parent.inodeId c.name
    (newLeasedFile c.record.inodeId (InodeAttrs.initializeAt c.attrs c.proposedAtMs)
      c.parent.mountId c.record.layout) (touchParent c.parent c.proposedAtMs) ++
      [.putNextInodeId (c.record.inodeId + 1)])).applyBatch c.eviction

theorem applyBatch_ops (c : FileCreation s) :
    s.applyBatch c.ops = c.evicted.applyBatch (recordOps c.record c.count) := by
  unfold evicted
  rw [← applyBatch_append, ← applyBatch_append]
  rfl

theorem replayTable_ops (c : FileCreation s) :
    (s.applyBatch c.ops).replayTable = c.evicted.replayTable.insert c.record := by
  rw [c.applyBatch_ops]
  rfl

theorem next_ops (c : FileCreation s) : (s.applyBatch c.ops).next = c.record.inodeId + 1 := by
  unfold ops
  rw [next, applyBatch_createFileOps c.room]
  rfl

theorem replaySound (c : FileCreation s) (hreplay : ReplaySound s)
    (hevolves : s.Evolves (s.applyBatch c.ops)) : ReplaySound (s.applyBatch c.ops) := by
  obtain ⟨hconsistent, hlength, hle, hrecords, hindexes⟩ :
      c.evicted.replayTable.Consistent ∧ _ := c.room.evicts hreplay rfl
  have hfree : c.evicted.createFileReplay.get c.record.operationId.key = none := by
    by_contra hsome
    obtain ⟨other, hother⟩ := Option.ne_none_iff_exists'.1 hsome
    have hnew := c.isNew
    rw [hrecords hother] at hnew
    cases hnew
  have hunused : c.evicted.createFileReplayInode.get c.record.inodeId = none := by
    by_contra hsome
    obtain ⟨other, hother⟩ := Option.ne_none_iff_exists'.1 hsome
    have hlt := hreplay.lt_next (hindexes hother)
    rw [c.allocates.next_get] at hlt
    exact absurd hlt (lt_irrefl _)
  have htable := c.replayTable_ops
  have hlength' : (s.applyBatch c.ops).createFileReplay.entries.length = c.count := by
    rw [← hlength, c.applyBatch_ops]
    exact OrderedTable.length_put hfree
  refine { (htable ▸ hconsistent.insert hfree hunused :
      (s.applyBatch c.ops).replayTable.Consistent) with
    index_lt_next := ?_, count_eq := ?_, count_le := ?_, record_layout := ?_ }
  · intro i other hindex
    apply exists_next
    have hindex : (c.evicted.replayTable.insert c.record).byInode.get i = some other := by
      rw [← htable]
      exact hindex
    rcases insert_byInode.1 hindex with ⟨rfl, _⟩ | ⟨_, hindex⟩
    · rw [c.next_ops]
      exact Nat.lt_succ_self _
    · exact (hreplay.lt_next (hindexes hindex)).trans_le hevolves.next_le
  · rw [hlength', c.applyBatch_ops]
    rfl
  · rw [hlength']
    exact hle
  · intro key other inode hother hinode
    have hother : (c.evicted.replayTable.insert c.record).records.get key = some other := by
      rw [← htable]
      exact hother
    rcases insert_records.1 hother with ⟨_, rfl⟩ | ⟨_, hother⟩
    · rcases applyBatch_inode hinode with hold | ⟨hput, hinodeId⟩
      · exact absurd (c.allocates.ahead hold) (lt_irrefl _)
      · rcases putInode_mem_createFileOps c.room hput with rfl | rfl
        · exact ⟨_, rfl, rfl⟩
        · have hparent := c.target.parent_eq.1
          rw [show c.parent.inodeId = c.record.inodeId from hinodeId] at hparent
          exact absurd (c.allocates.ahead hparent) (lt_irrefl _)
    · exact hreplay.layout_evolves hevolves (hrecords hother) hinode

end FileCreation

theorem Effect.replay_cases (h : Effect s command success batch) : (∀ op ∈ batch, op.KeepsReplay) ∨
    ∃ c : FileCreation s, command.createRequest = some c.request ∧ batch = c.ops := by
  cases h with
  | bootstrapped => exact .inl (by simp [bootstrapOps, BatchOp.KeepsReplay])
  | directoryMade => exact .inl (by simp [createEntryOps, BatchOp.KeepsReplay])
  | directoriesMade =>
    refine .inl fun op hop => ?_
    unfold directoriesOps at hop
    split at hop
    · cases hop
    · rcases List.mem_append.1 hop with hop | hop
      · obtain ⟨entry, _, hop⟩ := List.mem_flatMap.1 hop
        simp only [RecursiveMkdirEntry.ops, createEntryOps, List.mem_cons, List.not_mem_nil,
          or_false] at hop
        rcases hop with rfl | rfl | rfl <;> trivial
      · rw [List.mem_singleton.1 hop]
        trivial
  | @fileMade t _ _ _ _ _ name _ _ _ _ attrs _ parent record eviction count hnew hdeadline
      hexpires _ hparent _ halloc hroom hrecord =>
      right
      have hoperation := congrArg CreateFileReplayRecord.operationId hrecord
      have hdeadline' := congrArg CreateFileReplayRecord.requestDeadlineMs hrecord
      have hexpires' := congrArg CreateFileReplayRecord.expiresAtMs hrecord
      have hid := congrArg CreateFileReplayRecord.inodeId hrecord
      have hlayout := congrArg CreateFileReplayRecord.layout hrecord
      have hroot := congrArg CreateFileReplayRecord.mountRootInodeId hrecord
      have hcomponents := congrArg CreateFileReplayRecord.relativeComponents hrecord
      dsimp only at hoperation hdeadline' hexpires' hid hlayout hroot hcomponents
      refine ⟨⟨t, parent, name, attrs, eviction, record, count, hoperation ▸ hnew,
        hdeadline' ▸ hdeadline, hexpires' ▸ hexpires, hid ▸ halloc, hroot ▸ hcomponents ▸ hparent,
        hroom⟩, ?_, ?_⟩
      · simp [Command.createRequest, FileCreation.request, hoperation, hdeadline',
          hexpires', hroot, hcomponents]
      · simp [FileCreation.ops, hid, hlayout]
  | @renamed _ _ _ _ _ _ expectedDst =>
    left
    cases expectedDst <;> simp [renameOps, BatchOp.KeepsReplay]
  | @reclaimed _ _ _ update _ _ _ =>
    refine .inl fun op hop => ?_
    have hreclaims := update.reclaims hop
    cases op <;> trivial
  | _ => exact .inl (by simp [BatchOp.KeepsReplay, renameOps])

theorem Effect.replaySound (hkeyed : Keyed s) (hreplay : ReplaySound s)
    (h : Effect s command success batch) : ReplaySound (s.applyBatch batch) := by
  have hevolves := h.evolves hkeyed
  rcases h.replay_cases with hops | ⟨c, _, rfl⟩
  · obtain ⟨htable, hcount⟩ := replay_applyBatch (s := s) hops
    exact hreplay.of_keeps htable hcount hevolves
  · exact c.replaySound hreplay hevolves

end

/-! ## Runs -/

def FromLeader (past : Past) (s : Store) (entry : LogApply) : Prop :=
  ∃ u ∈ visited past s, LeaderBuilt u entry.command

section Runs

variable {admits : Past → Store → LogApply → Prop} {t : ℕ} {group : GroupName}
  {past : Past} {s : Store} {entry : LogApply}

theorem mounts_of_run (hrun : Run Applies admits (Store.bootstrapped t group) past s) :
    s.mounts = rootMounts group := by
  refine Run.invariant (P := fun s => s.mounts = rootMounts group) hrun rfl
    fun _ hmounts _ hstep => ?_
  rcases hstep.cases with ⟨success, batch, _, heffect, rfl⟩ | ⟨_, rfl⟩
  · rw [← hmounts]
    refine heffect.mounts_eq ⟨rootMountEntry group, ?_⟩
    rw [hmounts]
    rfl
  · exact hmounts

theorem ReplaySound.bootstrapped (t : ℕ) (group : GroupName) :
    ReplaySound (Store.bootstrapped t group) := by
  constructor
  · constructor <;> simp [Store.bootstrapped, bootstrapOps, BatchOp.apply, empty]
  · simp [Store.bootstrapped, bootstrapOps, BatchOp.apply, empty]
  · rfl
  · exact Nat.zero_le _
  · simp [Store.bootstrapped, bootstrapOps, BatchOp.apply, empty]

theorem replay_of_run (hrun : Run Applies admits (Store.bootstrapped t group) past s) :
    ReplaySound s := by
  refine Run.invariant hrun (.bootstrapped t group) fun hrun hreplay _ hstep => ?_
  rcases hstep.cases with ⟨success, batch, _, heffect, rfl⟩ | ⟨_, rfl⟩
  · exact heffect.replaySound (keyed_of_run hrun (.bootstrapped t group)) hreplay
  · exact hreplay

theorem files_of_run (hrun : Run Applies admits (Store.bootstrapped t group) past s) :
    FilesSound s := by
  refine Run.invariant hrun ?_ fun hrun hfiles _ hstep =>
    hstep.filesSound (keyed_of_run hrun (.bootstrapped t group)) hfiles
  have hdir : ∀ {i inode}, (bootstrapped t group).inode i = some inode → inode.kind = .dir := by
    intro i inode hinode
    rw [(bootstrapped_inode_cases t group hinode).2]
    rfl
  constructor
  · intro i inode file hinode hkind
    rw [hdir hinode] at hkind
    cases hkind
  · intro i inode file commit hinode hkind
    rw [hdir hinode] at hkind
    cases hkind

theorem FromLeader.builtIn (h : FromLeader past s entry)
    (hrun : Run Applies admits (Store.bootstrapped t group) past s) :
    ∃ u ∈ visited past s, entry.command.BuiltIn u := by
  obtain ⟨u, hu, hbuilt⟩ := h
  obtain ⟨earlier, hearlier⟩ := Run.of_mem_visited hrun hu
  exact ⟨u, hu, hbuilt.builtIn (mounts_of_run hearlier)⟩

theorem FromLeader.intoDirectory (h : FromLeader past s entry)
    (hrun : Run Applies admits (Store.bootstrapped t group) past s) :
    IntoDirectory past s entry := by
  obtain ⟨u, hu, hbuilt⟩ := h.builtIn hrun
  unfold IntoDirectory
  cases hcommand : entry.command with
  | rename =>
    rw [hcommand] at hbuilt
    exact ⟨u, hu, hbuilt.2.1⟩
  | _ => trivial

variable (hrun : Run Applies FromLeader (Store.bootstrapped t group) past s)

include hrun

theorem linked_of_leaderRun : Linked s := by
  refine linked_of_run (fun h => h) (hrun.mono ?_) (.bootstrapped t group)
  exact fun hrun hentry => hentry.intoDirectory hrun

theorem names_of_leaderRun : NamesValid s := by
  refine Run.invariant (P := fun s => NamesValid s) hrun ?_ fun hrun hnames hentry hstep => ?_
  · intro p n c hdentry
    rw [bootstrapped_dentry] at hdentry
    cases hdentry
  · rcases hstep.cases with ⟨success, batch, _, heffect, rfl⟩ | ⟨_, rfl⟩
    · obtain ⟨u, _, hbuilt⟩ := hentry.builtIn hrun
      exact heffect.namesValid hnames hbuilt
    · exact hnames

theorem sound_of_leaderRun : Sound s where
  linked := linked_of_leaderRun hrun
  files := files_of_run hrun
  replay := replay_of_run hrun
  names := names_of_leaderRun hrun

end Runs

end Beryl
