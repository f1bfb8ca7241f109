import Beryl.Effect

/-!
# Specifications of the storage layer

How each read and each commit ends.  A failure is always a `Refusal`: it leaves
the database as it was, it is an error and not a panic, and under the stated
hypothesis it is one that becomes a committed rejection.
-/

namespace Beryl

open Transaction Store CreateFileOperationId DetachedRootReclaimEntry List

/-- The inodes are linked, the names are valid, and no storage call fails. -/
structure Db.Fit (db : Db) : Prop where
  healthy : db.env.Healthy
  linked : Linked db.store
  names : NamesValid db.store

/-- A failure without effect, and a rejection whenever `hyp` holds. -/
def Refusal (hyp : Prop) (db : Db) (abort : Abort) (db' : Db) : Prop :=
  db' = db ∧ ∃ error, abort = .failed error ∧ (hyp → error.Rejectable)

def Commits (db : Db) (command : Command) (raftState : AppMetadataRaftState)
    (success : ApplySuccess) (db' : Db) : Prop :=
  ∃ batch, Effect db.store command success batch ∧ db' = db.commit batch raftState

variable {hyp : Prop} {db : Db} {error : MetadataError}

theorem Refusal.rejected (h : error.Rejectable) :
    Refusal hyp db (.failed error) db := ⟨rfl, error, rfl, fun _ => h⟩

theorem Refusal.excluded (h : hyp → False) :
    Refusal hyp db (.failed error) db := ⟨rfl, error, rfl, fun hhyp => (h hhyp).elim⟩

section Rules

variable {α β : Type} {ok : α → Db → Prop} {call : StorageCall} {err : Abort → Db → Prop}
  {batch : WriteBatch} {raftState : AppMetadataRaftState} {read : Store → α}

theorem query_ensures (hhealthy : hyp → db.env.Healthy)
    (hok : ok (read db.store) db) : Ensures (query call read) db ok (Refusal hyp db) := by
  unfold Ensures query
  cases hfault : db.env.fault call with
  | none => exact hok
  | some =>
    refine .excluded fun hhyp => ?_
    rw [hhealthy hhyp call] at hfault
    cases hfault

variable {f : β → StorageM α}

theorem query_bind {read : Store → β} (hfit : hyp → db.Fit)
    (hok : Ensures (f (read db.store)) db ok (Refusal hyp db)) :
    Ensures (query call read >>= f) db ok (Refusal hyp db) :=
  ensures_bind (query_ensures (fun hhyp => (hfit hhyp).healthy) hok)

theorem found_bind {read : Store → Option β} {value : β} {abort : Abort} (hfit : hyp → db.Fit)
    (hread : read db.store = some value) (hok : Ensures (f value) db ok (Refusal hyp db)) :
    Ensures (query call read >>= fun found => okOr found abort >>= f) db ok (Refusal hyp db) :=
  query_bind hfit (okOr_bind_of_some hread hok)

theorem encode_bind {f : Unit → StorageM α} (hfit : hyp → db.Fit)
    (hok : Ensures (f ()) db ok (Refusal hyp db)) :
    Ensures (encode call >>= f) db ok (Refusal hyp db) :=
  query_bind hfit hok

theorem ofResult_ensures {result : MetadataResult α}
    (herr : ∀ error, result = .error error → err (.failed error) db)
    (hok : ∀ value, result = .ok value → ok value db) : Ensures (ofResult result) db ok err := by
  cases result with
  | error error => exact herr error rfl
  | ok value => exact hok value rfl

theorem ofResult_bind {result : MetadataResult β}
    (herr : ∀ error, result = .error error → err (.failed error) db)
    (hok : ∀ value, result = .ok value → Ensures (f value) db ok err) :
    Ensures (ofResult result >>= f) db ok err :=
  ensures_bind (ofResult_ensures herr hok)

theorem rejectIf_bind {condition : Prop} [Decidable condition] {f : Unit → StorageM α}
    (hreject : error.Rejectable) (hok : ¬condition → Ensures (f ()) db ok (Refusal hyp db)) :
    Ensures (rejectIf condition error >>= f) db ok (Refusal hyp db) :=
  failIf_bind (fun _ => .rejected hreject) hok

theorem okOrElse_bind {value : Option β} (hreject : error.Rejectable)
    (hok : ∀ result, value = some result → Ensures (f result) db ok (Refusal hyp db)) :
    Ensures (okOrElse value error >>= f) db ok (Refusal hyp db) :=
  okOr_bind (fun _ => .rejected hreject) hok

theorem commitAuthorityBatch_ensures {ok : Unit → Db → Prop} (hfit : hyp → db.Fit)
    (hok : ok () (db.commit batch raftState)) :
    Ensures (commitAuthorityBatch batch raftState) db ok (Refusal hyp db) :=
  encode_bind hfit (encode_bind hfit (ensures_update hok))

theorem commit_bind {f : Unit → StorageM α} (hfit : hyp → db.Fit)
    (hok : Ensures (f ()) (db.commit batch raftState) ok (Refusal hyp db)) :
    Ensures (commitAuthorityBatch batch raftState >>= f) db ok (Refusal hyp db) :=
  ensures_bind (commitAuthorityBatch_ensures hfit hok)

theorem query_healthy (h : db.env.Healthy) : query call read db = (.ok (read db.store), db) := by
  unfold query
  rw [h call]

theorem commitAuthorityBatch_healthy (h : db.env.Healthy) :
    commitAuthorityBatch batch raftState db = (.ok (), db.commit batch raftState) := by
  simp [commitAuthorityBatch, encode, query_healthy h, bind, update]

variable {x : StorageM β} {mid : β → Prop}

theorem reads_bind (hx : Ensures x db (fun value db' => db' = db ∧ mid value) (Refusal hyp db))
    (hok : ∀ value, mid value → Ensures (f value) db ok (Refusal hyp db)) :
    Ensures (x >>= f) db ok (Refusal hyp db) := by
  refine hx.bind (fun _ _ h => h) fun value db' h => ?_
  obtain ⟨rfl, hmid⟩ := h
  exact hok value hmid

theorem reads_eq_ok {value : α} {db' : Db}
    (hx : Ensures x db (fun value db' => db' = db ∧ mid value) err)
    (h : (x >>= f) db = (.ok value, db')) :
    ∃ result, mid result ∧ f result db = (.ok value, db') := by
  obtain ⟨result, between, hrun, hrest⟩ := bind_eq_ok h
  obtain ⟨rfl, hmid⟩ := hx.of_ok hrun
  exact ⟨result, hmid, hrest⟩

end Rules

/-! ## Inodes and layouts -/

variable {inode : Inode} {inodeId parentInodeId last : InodeId} {s : Store}

theorem fileType_eq_dir : inode.fileType = .dir ↔ inode.kind = .dir := by
  unfold Inode.fileType
  cases inode.kind <;> simp

theorem fileType_eq_file : inode.fileType = .file ↔ ∃ file, inode.kind = .file file := by
  unfold Inode.fileType
  cases inode.kind <;> simp

variable {file : FileData}

theorem Inode.file_eq_ok : inode.file = .ok file ↔ inode.kind = .file file := by
  unfold Inode.file
  cases inode.kind <;> simp

def Store.layout (s : Store) (inodeId : InodeId) : Option FileLayout :=
  match s.inode inodeId with
  | none => none
  | some inode =>
    match inode.kind with
    | .dir => none
    | .file file => some file.layout

theorem FileData.layout_valid (h : file.validate inodeId = .ok ()) :
    file.layout.validate = .ok () := by
  unfold FileData.validate at h
  split at h
  · cases h
  next hlayout => exact hlayout

theorem getLayoutOptional_ensures (hfit : hyp → db.Fit)
    (hfiles : hyp → FilesSound db.store) : Ensures (getLayoutOptional inodeId) db
      (fun layout db' => db' = db ∧ layout = db.store.layout inodeId) (Refusal hyp db) := by
  unfold getLayoutOptional layout
  refine query_bind hfit ?_
  cases hinode : db.store.inode inodeId with
  | none => exact ensures_pure ⟨rfl, rfl⟩
  | some inode =>
    cases hkind : inode.kind with
    | dir =>
      simp only [hkind]
      exact ensures_pure ⟨rfl, rfl⟩
    | file file =>
      simp only [hkind]
      cases hlayout : file.layout.validate with
      | ok => exact ensures_pure ⟨rfl, rfl⟩
      | error =>
        refine ensures_fail (.excluded fun hhyp => ?_)
        have hvalid := FileData.layout_valid ((hfiles hhyp).validate_eq hinode hkind)
        rw [hlayout] at hvalid
        cases hvalid

/-! ## The inode allocator -/

/-- The allocator can hand out `count` more ids without overflow. -/
def Store.AllocatorRoom (s : Store) (count : ℕ) : Prop :=
  ∀ next, s.nextInodeId = some next → next + count < 2 ^ 64

theorem Linked.lastInodeKey_pos (h : Linked s) (hlast : s.lastInodeKey = some last) : 0 < last := by
  unfold lastInodeKey at hlast
  obtain ⟨entry, hentry, rfl⟩ := Option.map_eq_some_iff.1 hlast
  have hget := s.inodes.mem_entries_iff.1 (mem_of_getLast? hentry)
  exact h.inode_pos hget

theorem Linked.lastInodeKey_lt (h : Linked s) {next : InodeId}
    (hlast : s.lastInodeKey = some last) (hnext : s.nextInodeId = some next) : last < next := by
  unfold lastInodeKey at hlast
  obtain ⟨entry, hentry, rfl⟩ := Option.map_eq_some_iff.1 hlast
  have hget := s.inodes.mem_entries_iff.1 (mem_of_getLast? hentry)
  obtain ⟨next', hnext', hlt⟩ := h.inode_lt_next hget
  rw [hnext] at hnext'
  cases hnext'
  exact hlt

theorem Store.le_lastInodeKey {i : InodeId} (hinode : s.inode i = some inode)
    (hlast : s.lastInodeKey = some last) : i ≤ last := by
  obtain ⟨entry, hentry, hle⟩ := OrderedTable.exists_getLast_of_get hinode
  unfold lastInodeKey at hlast
  rw [hentry] at hlast
  cases hlast
  exact hle

theorem Store.lastInodeKey_eq_none : s.lastInodeKey = none ↔ ∀ i, s.inode i = none := by
  unfold lastInodeKey
  rw [Option.map_eq_none_iff, getLast?_eq_none_iff]
  constructor
  · intro h i
    cases hinode : s.inode i with
    | none => rfl
    | some =>
      have hmem := s.inodes.mem_entries_iff.2 hinode
      rw [h] at hmem
      cases hmem
  · intro h
    refine eq_nil_iff_forall_not_mem.2 fun entry hmem => ?_
    have hget := s.inodes.mem_entries_iff.1 hmem
    have hnone := h entry.1
    unfold inode at hnone
    rw [hnone] at hget
    cases hget

theorem Store.dentriesUnder_eq_nil :
    s.dentriesUnder parentInodeId = [] ↔ ∀ name, s.dentry parentInodeId name = none := by
  constructor
  · intro h name
    cases hdentry : s.dentry parentInodeId name with
    | none => rfl
    | some =>
      have hmem := mem_dentriesUnder.2 hdentry
      rw [h] at hmem
      cases hmem
  · intro h
    refine eq_nil_iff_forall_not_mem.2 fun entry hmem => ?_
    have hdentry := mem_dentriesUnder.1 hmem
    rw [h entry.1] at hdentry
    cases hdentry

section

variable (hfit : hyp → db.Fit)
include hfit

theorem maxInodeId_ensures :
    Ensures maxInodeId db (fun last db' => db' = db ∧ last = db.store.lastInodeKey)
      (Refusal hyp db) := by
  unfold maxInodeId
  refine query_bind hfit ?_
  cases hlast : db.store.lastInodeKey with
  | none => exact ensures_pure ⟨rfl, rfl⟩
  | some =>
    refine failIf_bind (fun hzero => .excluded fun hhyp => ?_) fun _ => ensures_pure ⟨rfl, rfl⟩
    have hpos := (hfit hhyp).linked.lastInodeKey_pos hlast
    lia

theorem prepareInodeAllocation_ensures (hexists : ∃ i inode, db.store.inode i = some inode)
    (hroom : hyp → db.store.AllocatorRoom 1) : Ensures prepareInodeAllocation db
      (fun allocation db' => db' = db ∧ db.store.Allocates allocation.inodeId ∧
          allocation.nextInodeId = allocation.inodeId + 1) (Refusal hyp db) := by
  obtain ⟨i, inode, hinode⟩ := hexists
  unfold prepareInodeAllocation
  refine query_bind hfit (okOr_bind (fun hnone => ?_) fun next hnext => ?_)
  · refine .excluded fun hhyp => ?_
    obtain ⟨next, hnext, _⟩ := (hfit hhyp).linked.inode_lt_next hinode
    rw [hnone] at hnext
    cases hnext
  refine failIf_bind (fun hlt => .excluded fun hhyp => ?_) fun htwo => ?_
  · have := (hfit hhyp).linked.two_le_next hnext
    lia
  refine reads_bind (maxInodeId_ensures hfit) ?_
  rintro _ rfl
  refine okOr_bind (fun hnone => .excluded fun _ => ?_) fun last hlast => ?_
  · rw [lastInodeKey_eq_none.1 hnone i] at hinode
    cases hinode
  refine failIf_bind (fun hle => .excluded fun hhyp => ?_) fun hlast_lt => ?_
  · have := (hfit hhyp).linked.lastInodeKey_lt hlast hnext
    lia
  refine query_bind hfit (failIf_bind (fun hsome => .excluded fun hhyp => ?_) fun _ => ?_)
  · obtain ⟨inode', hinode'⟩ := Option.isSome_iff_exists.1 hsome
    have := le_lastInodeKey hinode' hlast
    lia
  refine okOr_bind (fun hoverflow => .excluded fun hhyp => ?_)
    fun nextRaw hraw => ensures_pure ⟨rfl, ⟨hnext, by lia, fun h => ?_⟩, ?_⟩
  · rw [checkedAddU64_of_lt (hroom hhyp next hnext)] at hoverflow
    cases hoverflow
  · have := le_lastInodeKey h hlast
    lia
  · exact (checkedAddU64_eq_some hraw).1

theorem validateTargetsFrom_ensures
    {base : InodeId} (halloc : db.store.Allocates base) (count : ℕ) :
    ∀ expected, base ≤ expected → (hyp → expected + count < 2 ^ 64) →
    Ensures (validateTargetsFrom expected (range' expected count)) db
      (fun next db' => db' = db ∧ next = expected + count) (Refusal hyp db) := by
  induction count with
  | zero =>
    intro expected _ _
    exact ensures_pure ⟨rfl, rfl⟩
  | succ count ih =>
    intro expected hbase hbound
    rw [range'_succ]
    refine failIf_bind (fun hne => absurd rfl hne) fun _ => query_bind hfit ?_
    refine failIf_bind (fun hsome => .excluded fun _ => ?_) fun _ => ?_
    · obtain ⟨inode, hinode⟩ := Option.isSome_iff_exists.1 hsome
      have := halloc.ahead hinode
      lia
    refine okOr_bind (fun hoverflow => .excluded fun hhyp => ?_) fun next hnext => ?_
    · have hlt : expected + 1 < 2 ^ 64 := by
        have := hbound hhyp
        lia
      rw [checkedAddU64_of_lt hlt] at hoverflow
      cases hoverflow
    · obtain ⟨rfl, _⟩ := checkedAddU64_eq_some hnext
      refine (ih (expected + 1) (by lia) fun hhyp => ?_).mono ?_ fun _ _ h => h
      · have := hbound hhyp
        lia
      · rintro next' db' ⟨rfl, rfl⟩
        exact ⟨rfl, by lia⟩

variable {allocation : InodeAllocation}

theorem validateInodeAllocationTargets_ensures {count : ℕ}
    (halloc : db.store.Allocates allocation.inodeId) (hcount : 0 < count)
    (hnext : allocation.nextInodeId = allocation.inodeId + count)
    (hroom : hyp → db.store.AllocatorRoom count) :
    Ensures (validateInodeAllocationTargets allocation (range' allocation.inodeId count)) db
      (fun _ db' => db' = db ∧ True) (Refusal hyp db) := by
  unfold validateInodeAllocationTargets
  have hbound : hyp → allocation.inodeId + count < 2 ^ 64 := fun hhyp =>
    hroom hhyp _ halloc.next_eq
  refine failIf_bind (fun hbad => .excluded fun _ => ?_) fun _ => ?_
  · rcases hbad with hnil | hlt
    · rw [range'_eq_nil_iff] at hnil
      lia
    · have := halloc.two_le
      lia
  refine query_bind hfit (okOr_bind (fun hnone => ?_) fun persisted hpersisted => ?_)
  · rw [halloc.next_eq] at hnone
    cases hnone
  rw [halloc.next_eq] at hpersisted
  cases hpersisted
  refine failIf_bind (fun hne => absurd rfl hne) fun _ => ?_
  refine reads_bind (validateTargetsFrom_ensures hfit halloc count _ le_rfl hbound) ?_
  rintro _ rfl
  exact ensures_failIf (fun hne => absurd hnext hne) fun _ => ⟨rfl, trivial⟩

/-! ## Directory listings and markers -/

theorem isDirectoryEmpty_ensures :
    Ensures (isDirectoryEmpty parentInodeId) db (fun empty db' => db' = db ∧
        (empty = true ↔ ∀ name, db.store.dentry parentInodeId name = none)) (Refusal hyp db) := by
  have hpage : Ensures (listDentriesWithCursor parentInodeId none 1) db
      (fun page db' => db' = db ∧
        (page.1.isEmpty = true ↔ ∀ name, db.store.dentry parentInodeId name = none))
      (Refusal hyp db) := by
    unfold listDentriesWithCursor
    refine failIf_bind (fun h => absurd h one_ne_zero) fun _ => ?_
    refine ofResult_bind (fun _ h => by cases h) fun after hafter => ?_
    cases hafter
    refine query_bind hfit ?_
    simp only [filter_true]
    rw [← dentriesUnder_eq_nil]
    cases hentries : db.store.dentriesUnder parentInodeId with
    | nil => exact ensures_pure ⟨rfl, by simp⟩
    | cons entry =>
      obtain ⟨name, child⟩ := entry
      refine ofResult_ensures (fun error herror => ?_) fun page hok => ?_
      · refine .excluded fun hhyp => ?_
        have hmem : (name, child) ∈ db.store.dentriesUnder parentInodeId := by
          rw [hentries]
          exact mem_cons_self
        have hvalid := (hfit hhyp).names (mem_dentriesUnder.1 hmem)
        simp [collectDentryPage, hvalid.ne_empty] at herror
      · refine ⟨rfl, ?_⟩
        by_cases hname : name = ""
        · simp [collectDentryPage, hname] at hok
        · simp only [collectDentryPage, hname, if_false, nil_append,
            length_singleton, if_true] at hok
          cases hok
          simp
  unfold isDirectoryEmpty
  exact reads_bind hpage fun page h => ensures_pure ⟨rfl, h⟩

theorem getDetachedRoot_ensures : Ensures (getDetachedRoot inodeId) db
      (fun marker db' => db' = db ∧ marker = db.store.marker inodeId) (Refusal hyp db) := by
  unfold getDetachedRoot
  refine query_bind hfit ?_
  cases hmarker : db.store.marker inodeId with
  | none => exact ensures_pure ⟨rfl, rfl⟩
  | some =>
    refine failIf_bind (fun hzero => .excluded fun hhyp => ?_) fun _ => ensures_pure ⟨rfl, rfl⟩
    have hmount := ((hfit hhyp).linked.marked_dir hmarker).1
    rw [hzero] at hmount
    cases hmount

/-! ## Replay records -/

theorem getCreateFileReplay_ensures {operationId : CreateFileOperationId}
    (hreplay : hyp → ReplaySound db.store) :
    Ensures (getCreateFileReplay operationId) db (fun record db' => db' = db ∧
        record = db.store.createFileReplay.get operationId.key) (Refusal hyp db) := by
  unfold getCreateFileReplay
  refine query_bind hfit ?_
  cases hrecord : db.store.createFileReplay.get operationId.key with
  | none => exact ensures_pure ⟨rfl, rfl⟩
  | some =>
    refine failIf_bind (fun hne => .excluded fun hhyp => hne ?_) fun _ => ensures_pure ⟨rfl, rfl⟩
    exact key_inj.1 ((hreplay hhyp).record_key hrecord)

theorem getCreateFileReplayForInode_ensures
    (hreplay : hyp → ReplaySound db.store) : Ensures (getCreateFileReplayForInode inodeId) db
      (fun result db' => db' = db ∧ ∀ operationId record,
        db.store.createFileReplayInode.get inodeId = some operationId →
        db.store.createFileReplay.get operationId.key = some record → result = some record)
      (Refusal hyp db) := by
  unfold getCreateFileReplayForInode
  refine query_bind hfit ?_
  cases hindex : db.store.createFileReplayInode.get inodeId with
  | none => exact ensures_pure ⟨rfl, fun _ _ h => by cases h⟩
  | some =>
    refine reads_bind (getCreateFileReplay_ensures hfit hreplay) ?_
    rintro _ rfl
    refine okOr_bind (fun hnone => .excluded fun hhyp => ?_) fun record hrecord => ?_
    · obtain ⟨record, hrecord, _⟩ := (hreplay hhyp).index_record hindex
      rw [hnone] at hrecord
      cases hrecord
    refine failIf_bind (fun hne => .excluded fun hhyp => hne ?_)
      fun _ => ensures_pure ⟨rfl, fun operationId' record' hindex' hrecord' => ?_⟩
    · obtain ⟨record', hrecord', hid⟩ := (hreplay hhyp).index_record hindex
      rw [hrecord] at hrecord'
      cases hrecord'
      exact hid
    · cases hindex'
      rw [hrecord] at hrecord'
      exact hrecord'

/-! ## Batch builders -/

section Batches

variable {α : Type} {ok : α → Db → Prop} {batch : WriteBatch} {inode : Inode}
  {f : WriteBatch → StorageM α}

theorem batchPutInode_bind (hok : Ensures (f (batch ++ [.putInode inode])) db ok (Refusal hyp db)) :
    Ensures (batchPutInode batch inode >>= f) db ok (Refusal hyp db) :=
  ensures_bind (encode_bind hfit (ensures_pure hok))

theorem batchPutInodeAllocation_bind
    (hok : Ensures (f (batch ++ [.putNextInodeId allocation.nextInodeId])) db ok (Refusal hyp db)) :
    Ensures (batchPutInodeAllocation batch allocation >>= f) db ok (Refusal hyp db) :=
  ensures_bind (encode_bind hfit (ensures_pure hok))

theorem putInodeAtomic_ensures {raftState : AppMetadataRaftState} {ok : Unit → Db → Prop}
    (hok : ok () (db.commit [.putInode inode] raftState)) :
    Ensures (putInodeAtomic inode raftState) db ok (Refusal hyp db) :=
  batchPutInode_bind hfit (commitAuthorityBatch_ensures hfit hok)

theorem createEntryBatch_bind {name : String} {updatedParent : Inode}
    (hok : Ensures (f (batch ++ createEntryOps parentInodeId name inode updatedParent)) db ok
      (Refusal hyp db)) :
    Ensures (createEntryBatch batch parentInodeId name inode updatedParent >>= f) db
      ok (Refusal hyp db) := by
  refine ensures_bind (batchPutInode_bind hfit (batchPutInode_bind hfit ?_))
  refine ensures_pure ?_
  simpa [createEntryOps] using hok

theorem createDirectoriesBatch_ensures (entries : List RecursiveMkdirEntry) :
    ∀ batch, Ensures (createDirectoriesBatch batch entries) db (fun batch' db' => db' = db ∧
        batch' = batch ++ entries.flatMap RecursiveMkdirEntry.ops) (Refusal hyp db) := by
  induction entries with
  | nil =>
    intro batch
    exact ensures_pure ⟨rfl, by simp⟩
  | cons entry rest ih =>
    intro batch
    refine createEntryBatch_bind hfit ((ih _).mono ?_ fun _ _ h => h)
    rintro batch' db' ⟨rfl, rfl⟩
    exact ⟨rfl, by simp [RecursiveMkdirEntry.ops]⟩

theorem batchPutInodeOptional_bind {inode : Option Inode}
    (hok : Ensures (f (batch ++ inode.toList.map .putInode)) db ok (Refusal hyp db)) :
    Ensures (batchPutInodeOptional batch inode >>= f) db ok (Refusal hyp db) := by
  cases inode with
  | none =>
    refine ensures_bind (ensures_pure ?_)
    simpa using hok
  | some => exact batchPutInode_bind hfit (by simpa using hok)

theorem reclaimEntriesBatch_ensures (entries : List DetachedRootReclaimEntry) :
    ∀ batch, Ensures (reclaimEntriesBatch batch entries) db (fun batch' db' => db' = db ∧
        batch' = batch ++ entries.flatMap ops) (Refusal hyp db) := by
  induction entries with
  | nil =>
    intro batch
    exact ensures_pure ⟨rfl, by simp⟩
  | cons entry rest ih =>
    intro batch
    unfold reclaimEntriesBatch
    cases hroot : entry.childDetachedRoot with
    | none =>
      refine (ih _).mono ?_ fun _ _ h => h
      rintro batch' db' ⟨rfl, rfl⟩
      exact ⟨rfl, by simp [ops, hroot]⟩
    | some =>
      refine encode_bind hfit ((ih _).mono ?_ fun _ _ h => h)
      rintro batch' db' ⟨rfl, rfl⟩
      exact ⟨rfl, by simp [ops, hroot]⟩

end Batches

end

/-! ## Recording a created file -/

theorem ReplaySound.expiry_ne_nil (h : ReplaySound s)
    (hcount : s.createFileReplayCount.getD 0 = maxCreateFileReplayRecords) :
    s.createFileReplayExpiry.entries ≠ [] := by
  intro hnil
  rw [h.count_eq] at hcount
  cases hentries : s.createFileReplay.entries with
  | nil =>
    rw [hentries] at hcount
    cases hcount
  | cons entry =>
    have hmem : entry ∈ s.createFileReplay.entries := by
      rw [hentries]
      exact mem_cons_self
    have hget := s.createFileReplay.mem_entries_iff.1 hmem
    have hexpiry := s.createFileReplayExpiry.mem_entries_iff.2 (h.record_expiry hget)
    rw [hnil] at hexpiry
    cases hexpiry

variable {proposedAtMs : ℕ}

theorem evictExpiredReplay_ensures {batch : WriteBatch}
    (hhealthy : hyp → db.env.Healthy) (hreplay : hyp → ReplaySound db.store)
    (hfull : db.store.createFileReplayCount.getD 0 = maxCreateFileReplayRecords) :
    Ensures (evictExpiredReplay batch proposedAtMs) db
      (fun batch' db' => db' = db ∧ ∃ eviction, batch' = batch ++ eviction ∧
        ReplayRoom db.store proposedAtMs eviction maxCreateFileReplayRecords) (Refusal hyp db) := by
  unfold evictExpiredReplay
  refine ensures_bind (query_ensures hhealthy (okOr_bind (fun hnone => ?_) fun first hfirst => ?_))
  · refine .excluded fun hhyp => (hreplay hhyp).expiry_ne_nil hfull ?_
    exact head?_eq_none_iff.1 hnone
  obtain ⟨key, value⟩ := first
  have hmem := db.store.createFileReplayExpiry.mem_entries_iff.1 (mem_of_head? hfirst)
  have hkey : key = expiryKey (ofLex key).1 (ofKey (ofLex key).2) := rfl
  refine rejectIf_bind ⟨_, rfl⟩ fun hexpired => ?_
  refine ensures_bind (query_ensures hhealthy ?_)
  refine okOr_bind (fun hnone => ?_) fun record hrecord => ?_
  · refine .excluded fun hhyp => ?_
    rw [hkey] at hmem
    obtain ⟨record, hrecord, _⟩ := (hreplay hhyp).expiry_record hmem
    rw [hnone] at hrecord
    cases hrecord
  refine failIf_bind (fun hne => .excluded fun hhyp => hne ?_) fun hoperation => ?_
  · exact key_inj.1 ((hreplay hhyp).record_key hrecord)
  have hoperation := not_not.1 hoperation
  refine ensures_bind (query_ensures hhealthy ?_)
  refine okOr_bind (fun hnone => ?_) fun indexed hindexed => ?_
  · refine .excluded fun hhyp => ?_
    rw [(hreplay hhyp).record_indexed hrecord] at hnone
    cases hnone
  refine failIf_bind (fun hne => .excluded fun hhyp => hne ?_) fun hindex => ?_
  · rw [(hreplay hhyp).record_indexed hrecord] at hindexed
    cases hindexed
    exact hoperation
  have hindex := not_not.1 hindex
  refine ensures_pure ⟨rfl, evictionOps (ofLex key).1 record, ?_, ?_⟩
  · simp [evictionOps, hoperation]
  · refine ReplayRoom.evict hfull ?_ (not_lt.1 hexpired) ?_ ?_
    · rw [hfirst, hoperation]
      rfl
    · rw [hoperation]
      exact hrecord
    · rw [hindexed, hindex, hoperation]

theorem batchPutCreateFileReplay_ensures {batch : WriteBatch} {record : CreateFileReplayRecord}
    (hhealthy : hyp → db.env.Healthy) (hreplay : hyp → ReplaySound db.store)
    (hnew : db.store.createFileReplay.get record.operationId.key = none)
    (hfresh : db.store.Allocates record.inodeId) :
    Ensures (batchPutCreateFileReplay batch record proposedAtMs) db
      (fun batch' db' => db' = db ∧ ∃ eviction count,
        batch' = batch ++ eviction ++ recordOps record count ∧
        ReplayRoom db.store proposedAtMs eviction count) (Refusal hyp db) := by
  unfold batchPutCreateFileReplay
  refine ensures_bind (query_ensures hhealthy (failIf_bind (fun hsome => ?_) fun _ => ?_))
  · rw [hnew] at hsome
    cases hsome
  refine ensures_bind (query_ensures hhealthy (failIf_bind (fun hsome => ?_) fun _ => ?_))
  · refine .excluded fun hhyp => ?_
    obtain ⟨operationId, hindex⟩ := Option.isSome_iff_exists.1 hsome
    obtain ⟨next, hnext, hlt⟩ := (hreplay hhyp).index_lt_next hindex
    rw [hfresh.next_eq] at hnext
    cases hnext
    exact lt_irrefl _ hlt
  refine ensures_bind (query_ensures hhealthy (failIf_bind (fun hgt => ?_) fun hle => ?_))
  · refine .excluded fun hhyp => ?_
    have hcount := (hreplay hhyp).count_eq
    have hbound := (hreplay hhyp).count_le
    omega
  by_cases hfull : db.store.createFileReplayCount.getD 0 = maxCreateFileReplayRecords
  · simp only [hfull, if_true]
    refine reads_bind (evictExpiredReplay_ensures hhealthy hreplay hfull) fun batch' h => ?_
    obtain ⟨eviction, rfl, hroom⟩ := h
    refine ensures_bind (ensures_pure (ensures_bind (query_ensures hhealthy
      (ensures_bind (query_ensures hhealthy ?_)))))
    exact ensures_pure ⟨rfl, eviction, maxCreateFileReplayRecords, by
      simp [recordOps, maxCreateFileReplayRecords], hroom⟩
  · simp only [hfull, if_false]
    refine ensures_bind (ensures_pure (ensures_bind (query_ensures hhealthy
      (ensures_bind (query_ensures hhealthy ?_)))))
    refine ensures_pure ⟨rfl, [], db.store.createFileReplayCount.getD 0 + 1, by
      simp [recordOps], ReplayRoom.free ?_⟩
    omega

end Beryl
