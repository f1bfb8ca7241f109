import Beryl.Keys
import Beryl.Soundness
import Mathlib.Data.Set.Function

/-!
# The replay table along runs

Whatever commands are applied, the replay records stay in bijection with their
two indexes, and a record leaves the table only after its session has expired.
The second half asks what a record is for: whether an operation that is repeated
can create a second file.
-/

namespace Beryl

open History Transaction CreateFileOperationId Store OrderedTable Abort ByteString

/-! ## Records and indexes -/

namespace ReplayTable

def recordSet (T : ReplayTable) : Set CreateFileReplayRecord :=
  {record | ∃ key, T.records.get key = some record}

/-- The record keys, the inode index and the expiry index correspond one to one,
and an inode is indexed under the operation of its record. -/
structure InBijection (T : ReplayTable) : Prop where
  keys : Set.BijOn (fun record => record.operationId.key) T.recordSet
    {key | T.records.get key ≠ none}
  inodes : Set.BijOn (fun record => record.inodeId) T.recordSet
    {i | T.byInode.get i ≠ none}
  expiries : Set.BijOn
    (fun record => expiryKey record.expiresAtMs record.operationId) T.recordSet
    {key | T.byExpiry.get key ≠ none}
  indexed : ∀ record ∈ T.recordSet,
    T.byInode.get record.inodeId = some record.operationId

variable {T : ReplayTable}

theorem Consistent.get_of_mem (h : T.Consistent) {record : CreateFileReplayRecord}
    (hrecord : record ∈ T.recordSet) : T.records.get record.operationId.key = some record := by
  obtain ⟨key, hkey⟩ := hrecord
  rw [h.record_key hkey]
  exact hkey

theorem Consistent.eq_of_operationId (h : T.Consistent)
    {left right : CreateFileReplayRecord} (hleft : left ∈ T.recordSet)
    (hright : right ∈ T.recordSet) (hid : left.operationId = right.operationId) : left = right := by
  have hget := h.get_of_mem hleft
  rw [hid, h.get_of_mem hright] at hget
  exact (Option.some.inj hget).symm

theorem Consistent.inBijection (h : T.Consistent) : T.InBijection where
  keys := by
    refine ⟨fun record hrecord => ?_, fun left hleft right hright heq => ?_, fun key hkey => ?_⟩
    · simp [h.get_of_mem hrecord]
    · exact h.eq_of_operationId hleft hright (key_inj.1 heq)
    · obtain ⟨record, hrecord⟩ := Option.ne_none_iff_exists'.1 hkey
      exact ⟨record, ⟨key, hrecord⟩, h.record_key hrecord⟩
  inodes := by
    refine ⟨fun record hrecord => ?_, fun left hleft right hright heq => ?_, fun i hi => ?_⟩
    · simp [h.record_indexed (h.get_of_mem hrecord)]
    · have hkey := h.eq_of_inodeId (h.get_of_mem hleft) (h.get_of_mem hright) heq
      exact h.eq_of_operationId hleft hright (key_inj.1 hkey)
    · obtain ⟨operationId, hindex⟩ := Option.ne_none_iff_exists'.1 hi
      obtain ⟨record, hrecord, hid⟩ := h.index_record hindex
      exact ⟨record, ⟨_, hrecord⟩, hid⟩
  expiries := by
    refine ⟨fun record hrecord => ?_, fun left hleft right hright heq => ?_, fun key hkey => ?_⟩
    · simp [h.record_expiry (h.get_of_mem hrecord)]
    · exact h.eq_of_operationId hleft hright (expiryKey_inj.1 heq).2
    · obtain ⟨_, hexpiry⟩ := Option.ne_none_iff_exists'.1 hkey
      obtain ⟨record, hrecord, hexpires⟩ := h.expiry_record
        (show T.byExpiry.get (expiryKey (ofLex key).1
          (ofKey (ofLex key).2)) = some () from hexpiry)
      refine ⟨record, ⟨_, hrecord⟩, ?_⟩
      have hid := key_inj.1 (h.record_key hrecord)
      simp only [hid, hexpires]
      rfl
  indexed record hrecord := h.record_indexed (h.get_of_mem hrecord)

end ReplayTable

theorem ReplaySound.empty : ReplaySound Store.empty := by
  constructor
  · constructor <;> simp [Store.empty]
  · simp [Store.empty]
  · rfl
  · exact Nat.zero_le _
  · simp [Store.empty]

variable {s : Store} {key : ReplayKey} {record : CreateFileReplayRecord}

theorem Reached.replaySound {past : Past} (hrun : Reached past s) : ReplaySound s := by
  refine Run.invariant hrun .empty fun hrun hreplay _ hstep => ?_
  rcases hstep.cases with ⟨success, batch, _, heffect, rfl⟩ | ⟨_, rfl⟩
  · exact heffect.replaySound (Reached.keyed hrun) hreplay
  · exact hreplay

/-! ## How records leave -/

/-- The record of a request holds the time at which its session expires. -/
def CreateRequest.RecordedIn (request : CreateRequest) (s : Store) : Prop :=
  ∃ record, s.createFileReplay.get request.operationId.key = some record ∧
    record.expiresAtMs = request.sessionExpiresAtMs

/-- A record that gives way at `t`: expired, and no other expires earlier. -/
structure Store.GivesWay (s : Store) (record : CreateFileReplayRecord) (t : ℕ) :
    Prop where
  expired : record.expiresAtMs ≤ t
  earliest : ∀ other ∈ s.replayTable.recordSet, record.expiresAtMs ≤ other.expiresAtMs

theorem expiryKey_le {left right : ℕ} {operation operation' : CreateFileOperationId}
    (h : expiryKey left operation ≤ expiryKey right operation') : left ≤ right := by
  rcases Prod.Lex.le_iff.1 h with hlt | ⟨heq, _⟩
  · exact hlt.le
  · exact heq.le

theorem ReplayRoom.keeps_or {u : Store} {t count : ℕ} {eviction : WriteBatch}
    (h : ReplayRoom s t eviction count) (hreplay : ReplaySound s)
    (hu : u.createFileReplay = s.createFileReplay)
    (hrecord : s.createFileReplay.get key = some record) :
    (u.applyBatch eviction).createFileReplay.get key = some record ∨ s.GivesWay record t := by
  cases h with
  | free =>
    rw [applyBatch_nil, hu]
    exact .inl hrecord
  | @evict evicted expiresAtMs _ hfirst hexpired hevicted _ =>
    by_cases hkey : key = evicted.operationId.key
    · right
      rw [hkey, hevicted] at hrecord
      cases hrecord
      have hexpiry := s.createFileReplayExpiry.mem_entries_iff.1 (List.mem_of_head? hfirst)
      obtain ⟨other, hother, hexpires⟩ := hreplay.expiry_record hexpiry
      rw [hevicted] at hother
      cases hother
      refine ⟨hexpires ▸ hexpired, fun other hother => ?_⟩
      obtain ⟨key', hget⟩ := hother
      have hle := head_le hfirst (hreplay.record_expiry hget)
      rw [hexpires]
      exact expiryKey_le hle
    · left
      have hdelete : (u.applyBatch (evictionOps expiresAtMs evicted)).createFileReplay =
          u.createFileReplay.delete evicted.operationId.key := rfl
      rw [hdelete, hu, get_delete, if_neg hkey]
      exact hrecord

theorem FileCreation.records_ops (c : FileCreation s) :
    (s.applyBatch c.ops).createFileReplay.get key = some record ↔
      (key = c.record.operationId.key ∧ record = c.record) ∨ (key ≠ c.record.operationId.key ∧
          c.evicted.createFileReplay.get key = some record) := by
  have hrecords : (s.applyBatch c.ops).createFileReplay =
      (c.evicted.replayTable.insert c.record).records :=
    congrArg ReplayTable.records c.replayTable_ops
  rw [hrecords]
  exact ReplayTable.insert_records

theorem FileCreation.evicted_keeps_or (c : FileCreation s) (hreplay : ReplaySound s)
    (hrecord : s.createFileReplay.get key = some record) :
    c.evicted.createFileReplay.get key = some record ∨ s.GivesWay record c.proposedAtMs := by
  unfold FileCreation.evicted
  refine c.room.keeps_or hreplay ?_ hrecord
  rfl

theorem Applies.record_kept_or {s' : Store} {entry : LogApply} (h : Applies s entry s')
    (hreplay : ReplaySound s) (hrecord : s.createFileReplay.get key = some record) :
    s'.createFileReplay.get key = some record ∨
      ∃ request, entry.command.createRequest = some request ∧
        s.GivesWay record request.proposedAtMs := by
  rcases h.cases with ⟨success, batch, _, heffect, rfl⟩ | ⟨_, rfl⟩
  · rcases heffect.replay_cases with hops | ⟨c, hcommand, rfl⟩
    · left
      have hrecords : (s.applyBatch batch).createFileReplay = s.createFileReplay :=
        congrArg ReplayTable.records (replay_applyBatch hops).1
      rw [hrecords]
      exact hrecord
    · have hne : key ≠ c.record.operationId.key := by
        intro heq
        have hnew := c.isNew
        rw [← heq, hrecord] at hnew
        cases hnew
      rcases c.evicted_keeps_or hreplay hrecord with hkept | hgives
      · exact .inl (c.records_ops.2 (.inr ⟨hne, hkept⟩))
      · exact .inr ⟨_, hcommand, hgives⟩
  · exact .inl hrecord

/-! ## Corruption errors -/

/-- How the errors begin that `batch_put_create_file_replay` reports when the
records, the indexes and the count disagree. -/
def replayCorruptionTexts : List String :=
  ["new CreateFile mutation attempted to overwrite", "CreateFile replay count ",
    "invalid CreateFile replay expiry key", "invalid CreateFile operation identity length",
    "CreateFile replay expiry index has ", "expired CreateFile replay has no inode index",
    "expired CreateFile inode replay index names another operation"]

def Abort.ReplayCorruption : Abort → Prop
  | .failed (.internal message) =>
    ∃ text ∈ replayCorruptionTexts,
      ByteString.ofString text <+: ByteString.ofString message
  | _ => False

def SparesReplay {α : Type} (x : StorageM α) : Prop :=
  ∀ db, db.env.Healthy → Ensures x db (fun _ db' => db'.env = db.env)
    fun abort _ => ¬abort.ReplayCorruption

namespace SparesReplay

variable {α β : Type}

theorem returns (value : α) : SparesReplay (pure value : StorageM α) := fun _ _ => rfl

variable {f : β → StorageM α} {x : StorageM β}

theorem bind (hx : SparesReplay x)
    (hf : ∀ value, SparesReplay (f value)) : SparesReplay (x >>= f) := by
  intro db hhealthy
  refine (hx db hhealthy).bind (fun _ _ h => h) fun value db' henv => ?_
  refine (hf value db' (henv ▸ hhealthy)).mono (fun _ _ h => h.trans henv) fun _ _ h => h

theorem query {call : StorageCall} {read : Store → α} : SparesReplay (query call read) := by
  intro db hhealthy
  unfold Ensures
  rw [query_healthy hhealthy]

variable {error : MetadataError} {db : Db} {message : String}

theorem rejectIf {condition : Prop} [Decidable condition]
    (h : ¬(failed error).ReplayCorruption) : SparesReplay (rejectIf condition error) :=
  fun _ _ => ensures_failIf (fun _ => h) fun _ => rfl

theorem okOrElse {value : Option α} (h : ¬(failed error).ReplayCorruption) :
    SparesReplay (okOrElse value error) :=
  fun _ _ => ensures_okOr (fun _ => h) fun _ _ => rfl

theorem ofResult {result : MetadataResult α}
    (h : ∀ error, result = .error error → ¬(failed error).ReplayCorruption) :
    SparesReplay (ofResult result) :=
  fun _ _ => ofResult_ensures h fun _ _ => rfl

theorem reads {mid : β → Prop} {ok : α → Db → Prop}
    (hx : SparesReplay x) (hhealthy : db.env.Healthy)
    (hspec : Ensures x db (fun value db' => db' = db ∧ mid value) (Refusal False db))
    (hok : ∀ value, mid value → Ensures (f value) db ok fun abort _ => ¬abort.ReplayCorruption) :
    Ensures (x >>= f) db ok fun abort _ => ¬abort.ReplayCorruption := by
  refine (hspec.and (hx db hhealthy)).bind (fun _ _ h => h.2) fun value db' h => ?_
  obtain ⟨⟨rfl, hmid⟩, _⟩ := h
  exact hok value hmid

/-- A text that differs from every corruption text in its first letters. -/
structure OtherText (message : String) : Prop where
  long : 12 ≤ (ByteString.ofString message).length
  differs : (ByteString.ofString message).take 12 ∉
    replayCorruptionTexts.map fun text => (ByteString.ofString text).take 12

theorem OtherText.append (h : OtherText message) (rest : String) : OtherText (message ++ rest) := by
  constructor
  · rw [ofString_append, List.length_append]
    exact h.long.trans (Nat.le_add_right _ _)
  · rw [ofString_append, List.take_append_of_le_length h.long]
    exact h.differs

theorem OtherText.spares (h : OtherText message) :
    ¬(failed (.internal message)).ReplayCorruption := by
  have hlong : ∀ text ∈ replayCorruptionTexts, 12 ≤ (ofString text).length := by decide
  rintro ⟨text, htext, rest, hrest⟩
  refine h.differs (List.mem_map.2 ⟨text, htext, ?_⟩)
  rw [← hrest, List.take_append_of_le_length (hlong text htext)]

theorem text (h : ∀ text ∈ replayCorruptionTexts, ¬ofString text <+: ofString
      message) : ¬(failed (.internal message)).ReplayCorruption := by
  rintro ⟨text, htext, hbegins⟩
  exact h text htext hbegins

theorem getCreateFileReplay (operationId : CreateFileOperationId) :
    SparesReplay (getCreateFileReplay operationId) := by
  refine query.bind fun found => ?_
  cases found with
  | none => exact returns _
  | some => exact (rejectIf (text (by decide))).bind fun _ => returns _

theorem walkCreateParent (mountId : MountId) (components : List String) :
    ∀ parent, SparesReplay (walkCreateParent mountId parent components) := by
  induction components with
  | nil => exact fun parent => returns parent
  | cons component rest ih =>
    intro parent
    refine query.bind fun _ => (okOrElse id).bind fun _ => ?_
    refine query.bind fun _ => (okOrElse id).bind fun child => ?_
    refine (rejectIf (text (by decide))).bind fun _ => ?_
    exact (rejectIf id).bind fun _ => ih child

theorem validateRelativeComponents (operation : String) (components : List String) :
    ∀ error, validateRelativeComponents operation components = .error error →
      ¬(failed error).ReplayCorruption := by
  have hcheck : ∀ components error,
      checkRelativeComponents operation components = .error error →
        ¬(failed error).ReplayCorruption := by
    intro components
    induction components with
    | nil => exact fun _ h => nomatch h
    | cons component rest ih =>
      intro error h
      unfold checkRelativeComponents at h
      split at h
      · cases h
        exact id
      · split at h
        · cases h
          exact id
        · exact ih error h
  intro error h
  unfold Beryl.validateRelativeComponents at h
  split at h
  · cases h
    exact id
  · split at h
    · cases h
      exact id
    · exact hcheck components error h

theorem resolveCreateParent (mountId : MountId) (epoch : ℕ) (root : InodeId)
    (components : List String) :
    SparesReplay (resolveCreateParent mountId epoch root components) := by
  refine (ofResult (validateRelativeComponents _ _)).bind fun _ => ?_
  refine query.bind fun _ => (okOrElse id).bind fun _ => ?_
  refine (rejectIf id).bind fun _ => ?_
  refine query.bind fun _ => (okOrElse id).bind fun _ => ?_
  refine (rejectIf (text (by decide))).bind fun _ => ?_
  cases components.getLast? with
  | none => exact fun _ _ => ensures_fail id
  | some => exact (walkCreateParent _ _ _).bind fun _ => returns _

theorem getLayout (inodeId : InodeId) : SparesReplay (getLayout inodeId) := by
  refine bind (query.bind fun found => ?_) fun _ => okOrElse id
  cases found with
  | none => exact returns _
  | some inode =>
    cases hkind : inode.kind with
    | dir =>
      simp only [hkind]
      exact returns _
    | file file =>
      simp only [hkind]
      cases file.layout.validate with
      | ok => exact returns _
      | error error =>
        have htext : OtherText "invalid file layout: " := by
          constructor <;> decide
        exact fun _ _ => ensures_fail (htext.append error.display).spares

theorem validateCreateFileReplay (record : CreateFileReplayRecord) (t : ℕ) :
    SparesReplay (validateCreateFileReplay record t) := by
  refine (rejectIf id).bind fun _ => ?_
  refine (resolveCreateParent _ _ _ _).bind fun (_, _, _) => ?_
  refine (rejectIf id).bind fun _ => ?_
  refine query.bind fun _ => (rejectIf id).bind fun _ => ?_
  refine query.bind fun _ => (okOrElse id).bind fun inode => ?_
  refine (rejectIf (text (by decide))).bind fun _ => ?_
  cases inode.kind with
  | dir => exact fun _ _ => ensures_fail (text (by decide))
  | file =>
    refine (rejectIf id).bind fun _ => (rejectIf id).bind fun _ => ?_
    exact (getLayout _).bind fun _ => rejectIf (text (by decide))

theorem prepareInodeAllocation : SparesReplay prepareInodeAllocation := by
  have hinvalid : OtherText "next_inode_id allocator authority is invalid: " := by
    constructor <;> decide
  have hbehind : OtherText "next_inode_id allocator " := by
    constructor <;> decide
  refine query.bind fun _ => (okOrElse (text (by decide))).bind fun next => ?_
  refine (rejectIf ((hinvalid.append _).append _).spares).bind fun _ => ?_
  refine bind (query.bind fun found => ?_) fun _ => ?_
  · cases found with
    | none => exact returns _
    | some => exact (rejectIf (text (by decide))).bind fun _ => returns _
  refine (okOrElse (text (by decide))).bind fun _ => ?_
  refine (rejectIf ((((hbehind.append _).append _).append _).append _).spares).bind fun _ => ?_
  refine query.bind fun _ => ?_
  refine (rejectIf ((((hbehind.append _).append _).append _).append _).spares).bind fun _ => ?_
  exact (okOrElse (text (by decide))).bind fun _ => returns _

theorem validateInodeAllocationTargets (allocation : InodeAllocation) (target : InodeId) :
    SparesReplay (validateInodeAllocationTargets allocation [target]) := by
  have hprepared : OtherText "inode allocation " := by
    constructor <;> decide
  have hexpected : OtherText "inode allocation target " := by
    constructor <;> decide
  have hexists : OtherText "inode allocation target already exists: " := by
    constructor <;> decide
  have hnext : OtherText "inode allocation next value " := by
    constructor <;> decide
  refine (rejectIf (text (by decide))).bind fun _ => ?_
  refine query.bind fun _ => (okOrElse (text (by decide))).bind fun _ => ?_
  refine (rejectIf (((hprepared.append _).append _).append _).spares).bind fun _ => ?_
  refine bind ?_ fun _ => rejectIf (((hnext.append _).append _).append _).spares
  refine (rejectIf (((hexpected.append _).append _).append _).spares).bind fun _ => ?_
  refine query.bind fun _ => (rejectIf (hexists.append _).spares).bind fun _ => ?_
  exact (okOrElse (text (by decide))).bind fun _ => returns _

theorem commitAuthorityBatch (batch : WriteBatch) (raftState : AppMetadataRaftState) :
    SparesReplay (commitAuthorityBatch batch raftState) := by
  intro db hhealthy
  unfold Ensures
  rw [commitAuthorityBatch_healthy hhealthy]
  rfl

theorem of_rejectable (h : error.Rejectable) : ¬(failed error).ReplayCorruption := by
  obtain ⟨rejection, h⟩ := h
  cases error <;> first | exact id | cases h

theorem batchPutCreateFileReplay {batch : WriteBatch} {t : ℕ}
    (hhealthy : db.env.Healthy) (hreplay : ReplaySound db.store)
    (hnew : db.store.createFileReplay.get record.operationId.key = none)
    (hfresh : db.store.Allocates record.inodeId) :
    Ensures (batchPutCreateFileReplay batch record t) db (fun _ db' => db'.env = db.env)
      fun abort _ => ¬abort.ReplayCorruption := by
  have hspec : Ensures (Beryl.batchPutCreateFileReplay batch record t) db _ (Refusal True db) :=
    batchPutCreateFileReplay_ensures (fun _ => hhealthy) (fun _ => hreplay) hnew hfresh
  refine hspec.mono (fun _ _ h => by rw [h.1]) fun abort _ h => ?_
  obtain ⟨_, error, rfl, hrejects⟩ := h
  exact of_rejectable (hrejects trivial)

theorem createFileAtomic {allocation : InodeAllocation} {parentInodeId : InodeId} {name : String}
    {inode updatedParent : Inode} {t : ℕ} {raftState : AppMetadataRaftState}
    (hhealthy : db.env.Healthy) (hreplay : ReplaySound db.store)
    (hnew : db.store.createFileReplay.get record.operationId.key = none)
    (hfresh : db.store.Allocates record.inodeId)
    (hvalidate : Ensures (Beryl.validateInodeAllocationTargets allocation [inode.inodeId]) db
      (fun _ db' => db' = db ∧ True) (Refusal False db)) :
    Ensures (createFileAtomic allocation parentInodeId name inode updatedParent record t
      raftState) db (fun _ _ => True) fun abort _ => ¬abort.ReplayCorruption := by
  refine (validateInodeAllocationTargets _ _).reads hhealthy hvalidate fun _ _ => ?_
  have hentry : createEntryBatch [] parentInodeId name inode updatedParent db =
      (.ok (createEntryOps parentInodeId name inode updatedParent), db) := by
    simp [createEntryBatch, batchPutInode, encode, query_healthy hhealthy, createEntryOps,
      Bind.bind, Pure.pure]
  have halloc (batch : WriteBatch) : batchPutInodeAllocation batch allocation db =
      (.ok (batch ++ [.putNextInodeId allocation.nextInodeId]), db) := by
    simp [batchPutInodeAllocation, encode, query_healthy hhealthy, Bind.bind, Pure.pure]
  refine ensures_bind_of_ok hentry (ensures_bind_of_ok (halloc _) ?_)
  refine (batchPutCreateFileReplay hhealthy hreplay hnew hfresh).bind (fun _ _ h => h)
    fun batch db henv => ?_
  exact (commitAuthorityBatch batch raftState db (henv ▸ hhealthy)).mono
    (fun _ _ _ => trivial) fun _ _ h => h

section

variable {db : Db} (hhealthy : db.env.Healthy) (hreplay : ReplaySound db.store)
  (operationId : CreateFileOperationId) (deadline expires : ℕ) (path : String)
  (mountId : MountId) (epoch : ℕ) (root : InodeId) (components : List String)
  (attrs : InodeAttrs) (layout : FileLayout) (t : ℕ) (raftState : AppMetadataRaftState)

include hhealthy hreplay

theorem createNewFile (hnew : db.store.createFileReplay.get operationId.key = none) :
    Ensures (createNewFile operationId deadline expires path mountId epoch root components
      attrs layout t raftState) db (fun _ _ => True) fun abort _ => ¬abort.ReplayCorruption := by
  refine failIf_bind (fun _ => id) fun _ => failIf_bind (fun _ => id) fun _ => ?_
  refine ofResult_bind (fun error herror => ?_) fun _ _ => ?_
  · cases hvalid : layout.validate <;> rw [hvalid] at herror <;> cases herror
    exact id
  refine (resolveCreateParent _ _ _ _).reads hhealthy
    (resolveCreateParent_ensures False.elim) fun (_, name, parent) h => ?_
  have hparent := h.1
  simp only at hparent ⊢
  refine ensures_bind_of_ok (query_healthy hhealthy) ?_
  refine failIf_bind (fun _ => id) fun _ => ?_
  refine prepareInodeAllocation.reads hhealthy (prepareInodeAllocation_ensures False.elim
    ⟨_, _, hparent.parent_eq.1⟩ False.elim) fun allocation halloc => ?_
  refine Ensures.bind (createFileAtomic hhealthy hreplay ?_ halloc.1 ?_) (fun _ _ h => h)
    fun _ _ _ => trivial
  · exact hnew
  · exact validateInodeAllocationTargets_ensures False.elim halloc.1 one_pos halloc.2 False.elim

theorem applyCreate :
    Ensures (applyCreate operationId deadline expires path mountId epoch root components
      attrs layout t raftState) db (fun _ _ => True) fun abort _ => ¬abort.ReplayCorruption := by
  refine (getCreateFileReplay _).reads hhealthy
    (getCreateFileReplay_ensures False.elim False.elim) fun found hfound => ?_
  cases found with
  | some record =>
    refine ensures_bind (ensures_failIf (fun _ => id) fun _ => ?_)
    refine Ensures.bind (validateCreateFileReplay record t db hhealthy) (fun _ _ h => h)
      fun _ db' henv => ?_
    exact Ensures.bind (commitAuthorityBatch [] raftState db' (henv ▸ hhealthy))
      (fun _ _ h => h) fun _ _ _ => trivial
  | none =>
    exact createNewFile hhealthy hreplay operationId deadline expires path mountId epoch
      root components attrs layout t raftState hfound.symm

end

end SparesReplay

/-! ## The table in every reached store -/

theorem ReplaySound.seek_earliest (hreplay : ReplaySound s)
    (hrange : ∀ key ∈ s.metaKeys, key.InRange) {found : Option ByteString}
    (hseek : ByteString.Seeks (s.metaKeys.map MetaKey.encode) createFileReplayExpiryPrefix found)
    (hsome : s.replayTable.recordSet.Nonempty) : ∃ record ∈ s.replayTable.recordSet,
      found = some (encodeCreateFileReplayExpiryKey record.expiresAtMs record.operationId) ∧
      ∀ other ∈ s.replayTable.recordSet, record.expiresAtMs ≤ other.expiresAtMs := by
  have hfound := seek_expiry hrange hseek
  cases hhead : s.createFileReplayExpiry.entries.head? with
  | none =>
    obtain ⟨record, key, hrecord⟩ := hsome
    have hexpiry := s.createFileReplayExpiry.mem_entries_iff.2 (hreplay.record_expiry hrecord)
    rw [List.head?_eq_none_iff.1 hhead] at hexpiry
    cases hexpiry
  | some first =>
    obtain ⟨key, value⟩ := first
    rw [hhead] at hfound
    have hget := s.createFileReplayExpiry.mem_entries_iff.1 (List.mem_of_head? hhead)
    obtain ⟨record, hrecord, hkey⟩ := hreplay.toConsistent.inBijection.expiries.surjOn
      (show key ∈ _ by simp [hget])
    refine ⟨record, hrecord, ?_, fun other hother => ?_⟩
    · rw [hfound, ← hkey]
      rfl
    · have hle := head_le hhead (hreplay.record_expiry (hreplay.toConsistent.get_of_mem hother))
      rw [← hkey] at hle
      exact expiryKey_le hle

/-- Whatever commands are applied, the replay records, their indexes and their
count agree, records leave in the order in which they expire and not before, and
no file creation finds the table corrupt. -/
theorem Reached.replay_table_sound {past : Past} {s : Store} (hrun : Reached past s) :
    s.replayTable.InBijection ∧ s.createFileReplayCount.getD 0 = s.createFileReplay.entries.length ∧
    s.createFileReplay.entries.length ≤ maxCreateFileReplayRecords ∧
    (∀ t ∈ past, ∀ key record, t.before.createFileReplay.get key = some record →
      t.after.createFileReplay.get key ≠ some record →
      ∃ request, t.label.command.createRequest = some request ∧
        t.before.GivesWay record request.proposedAtMs) ∧
    (∀ db, db.store = s → db.env.Healthy → ∀ operationId deadline expires path mountId
      epoch root components attrs layout proposedAtMs raftState abort db',
      applyCreate operationId deadline expires path mountId epoch root components attrs
        layout proposedAtMs raftState db = (.error abort, db') → ¬abort.ReplayCorruption) ∧
    ((∀ key ∈ s.metaKeys, key.InRange) → ∀ found,
      ByteString.Seeks (s.metaKeys.map MetaKey.encode) createFileReplayExpiryPrefix found →
      s.replayTable.recordSet.Nonempty → ∃ record ∈ s.replayTable.recordSet,
        found = some (encodeCreateFileReplayExpiryKey record.expiresAtMs record.operationId) ∧
        ∀ other ∈ s.replayTable.recordSet, record.expiresAtMs ≤ other.expiresAtMs) := by
  have hreplay := Reached.replaySound hrun
  refine ⟨hreplay.toConsistent.inBijection, hreplay.count_eq, hreplay.count_le, ?_, ?_, ?_⟩
  · intro t ht key record hbefore hafter
    obtain ⟨older, holder, _, hstep⟩ := Run.of_mem hrun ht
    exact (hstep.record_kept_or (Reached.replaySound holder) hbefore).resolve_left hafter
  · intro db hstore hhealthy operationId deadline expires path mountId epoch root
      components attrs layout proposedAtMs raftState abort db' hfailed
    rw [← hstore] at hreplay
    exact (SparesReplay.applyCreate hhealthy hreplay operationId deadline expires path
      mountId epoch root components attrs layout proposedAtMs raftState).of_error hfailed
  · exact fun hrange found hseek hsome => hreplay.seek_earliest hrange hseek hsome

theorem replay_table_sound_sampleLog :
    let run := healthyRun .empty sampleLog
    Reached run.1 run.2 ∧ run.2.createFileReplay.entries.length = 1 ∧
      run.2.createFileReplayCount = some 1 ∧ run.2.replayTable.InBijection := by
  intro run
  have hrun : Reached run.1 run.2 := Reached.healthyRun _
  exact ⟨hrun, rfl, rfl, (Reached.replay_table_sound hrun).1⟩

end Beryl
