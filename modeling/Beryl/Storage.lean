import Beryl.Inode
import Beryl.OrderedTable
import Beryl.Transaction
import Mathlib.Data.Prod.Lex
import Mathlib.Data.String.Basic

/-!
# Authority storage

The column families that hold replicated namespace authority, the write batches
that change them, and the database they live in.  A database keeps the journal
of the batches it committed, so that what one apply wrote can be read off it,
and an environment that may make any single storage call fail.
-/

namespace Beryl

open CreateFileOperationId List

abbrev DentryKey := InodeId ×ₗ String

def dentryKey (parentInodeId : InodeId) (name : String) : DentryKey :=
  toLex (parentInodeId, name)

@[simp] theorem dentryKey_inj {p q : InodeId} {n m : String} :
    dentryKey p n = dentryKey q m ↔ p = q ∧ n = m := by
  simp [dentryKey]

theorem exists_dentryKey (key : DentryKey) :
    ∃ parentInodeId name, key = dentryKey parentInodeId name :=
  ⟨(ofLex key).1, (ofLex key).2, rfl⟩

abbrev ReplayKey := ℕ ×ₗ ℕ

def CreateFileOperationId.key (operationId : CreateFileOperationId) : ReplayKey :=
  toLex (operationId.clientId, operationId.callId)

@[simp] theorem CreateFileOperationId.key_inj {left right : CreateFileOperationId} :
    left.key = right.key ↔ left = right := by
  cases left
  cases right
  simp [key]

def CreateFileOperationId.ofKey (key : ReplayKey) : CreateFileOperationId :=
  ⟨(ofLex key).1, (ofLex key).2⟩

abbrev ExpiryKey := ℕ ×ₗ ReplayKey

def expiryKey (expiresAtMs : ℕ) (operationId : CreateFileOperationId) : ExpiryKey :=
  toLex (expiresAtMs, operationId.key)

@[simp] theorem expiryKey_inj {left right : ℕ} {operation operation' : CreateFileOperationId} :
    expiryKey left operation = expiryKey right operation' ↔
      left = right ∧ operation = operation' := by
  simp [expiryKey]

/-- The replicated column families.  The scalar keys and the three replay
indexes of the `meta` family are fields of their own. -/
structure Store where
  mounts : OrderedTable MountId MountEntry
  workers : OrderedTable String WorkerInfo
  inodes : OrderedTable InodeId Inode
  dentries : OrderedTable DentryKey InodeId
  detachedRoots : OrderedTable InodeId DetachedRoot
  routeEpoch : Option ℕ
  mountEpoch : Option ℕ
  nextInodeId : Option InodeId
  createFileReplay : OrderedTable ReplayKey CreateFileReplayRecord
  createFileReplayInode : OrderedTable InodeId CreateFileOperationId
  createFileReplayExpiry : OrderedTable ExpiryKey Unit
  createFileReplayCount : Option ℕ

def Store.empty : Store where
  mounts := .empty
  workers := .empty
  inodes := .empty
  dentries := .empty
  detachedRoots := .empty
  routeEpoch := none
  mountEpoch := none
  nextInodeId := none
  createFileReplay := .empty
  createFileReplayInode := .empty
  createFileReplayExpiry := .empty
  createFileReplayCount := none

namespace Store

def inode (s : Store) (inodeId : InodeId) : Option Inode := s.inodes.get inodeId

def dentry (s : Store) (parentInodeId : InodeId) (name : String) :
    Option InodeId := s.dentries.get (dentryKey parentInodeId name)

def marker (s : Store) (inodeId : InodeId) : Option DetachedRoot :=
  s.detachedRoots.get inodeId

def dentriesUnder (s : Store) (parentInodeId : InodeId) :
    List (String × InodeId) :=
  (s.dentries.entries.filter fun entry => (ofLex entry.1).1 = parentInodeId).map
    fun entry => ((ofLex entry.1).2, entry.2)

theorem mem_dentriesUnder {s : Store} {parentInodeId : InodeId} {name : String} {child : InodeId} :
    (name, child) ∈ s.dentriesUnder parentInodeId ↔ s.dentry parentInodeId name = some child := by
  unfold dentriesUnder dentry
  rw [← OrderedTable.mem_entries_iff]
  constructor
  · intro h
    obtain ⟨⟨key, value⟩, hmem, heq⟩ := mem_map.1 h
    obtain ⟨hentry, hparent⟩ := mem_filter.1 hmem
    have hparent : (ofLex key).1 = parentInodeId := by simpa using hparent
    obtain ⟨rfl, rfl⟩ := Prod.mk.inj heq
    rw [← hparent]
    exact hentry
  · intro h
    refine mem_map.2 ⟨(dentryKey parentInodeId name, child), ?_, rfl⟩
    exact mem_filter.2 ⟨h, by simp [dentryKey]⟩

theorem dentriesUnder_nodup (s : Store) (parentInodeId : InodeId) :
    ((s.dentriesUnder parentInodeId).map Prod.fst).Nodup := by
  unfold dentriesUnder
  rw [map_map]
  have hascending := s.dentries.ascending.filter
    (fun entry => decide ((ofLex entry.1).1 = parentInodeId))
  refine pairwise_map.2 (hascending.imp_of_mem ?_)
  intro left right hleft hright hlt heq
  have hparent : (ofLex left.1).1 = (ofLex right.1).1 := by
    have hl := (mem_filter.1 hleft).2
    have hr := (mem_filter.1 hright).2
    rw [of_decide_eq_true hl, of_decide_eq_true hr]
  exact hlt.ne (ofLex.injective (Prod.ext hparent heq))

end Store

inductive BatchOp
  | putMount (entry : MountEntry)
  | putWorker (info : WorkerInfo)
  | putInode (inode : Inode)
  | deleteInode (inodeId : InodeId)
  | putDentry (parentInodeId : InodeId) (name : String) (child : InodeId)
  | deleteDentry (parentInodeId : InodeId) (name : String)
  | putDetachedRoot (inodeId : InodeId) (root : DetachedRoot)
  | deleteDetachedRoot (inodeId : InodeId)
  | putRouteEpoch (epoch : ℕ)
  | putMountEpoch (epoch : ℕ)
  | putNextInodeId (inodeId : InodeId)
  | putReplay (record : CreateFileReplayRecord)
  | deleteReplay (operationId : CreateFileOperationId)
  | putReplayInode (inodeId : InodeId) (operationId : CreateFileOperationId)
  | deleteReplayInode (inodeId : InodeId)
  | putReplayExpiry (expiresAtMs : ℕ) (operationId : CreateFileOperationId)
  | deleteReplayExpiry (expiresAtMs : ℕ) (operationId : CreateFileOperationId)
  | putReplayCount (count : ℕ)

abbrev WriteBatch := List BatchOp

def workerKey (groupName : GroupName) (workerId : WorkerId) : String :=
  s!"{groupName.asStr}/{workerId}"

def BatchOp.apply (s : Store) : BatchOp → Store
  | putMount entry => { s with mounts := s.mounts.put entry.mountId entry }
  | putWorker info =>
    { s with workers := s.workers.put (workerKey info.groupName info.workerId) info }
  | putInode inode => { s with inodes := s.inodes.put inode.inodeId inode }
  | deleteInode inodeId => { s with inodes := s.inodes.delete inodeId }
  | putDentry parent name child =>
    { s with dentries := s.dentries.put (dentryKey parent name) child }
  | deleteDentry parent name =>
    { s with dentries := s.dentries.delete (dentryKey parent name) }
  | putDetachedRoot inodeId root =>
    { s with detachedRoots := s.detachedRoots.put inodeId root }
  | deleteDetachedRoot inodeId =>
    { s with detachedRoots := s.detachedRoots.delete inodeId }
  | putRouteEpoch epoch => { s with routeEpoch := some epoch }
  | putMountEpoch epoch => { s with mountEpoch := some epoch }
  | putNextInodeId inodeId => { s with nextInodeId := some inodeId }
  | putReplay record =>
    { s with
      createFileReplay := s.createFileReplay.put record.operationId.key record }
  | deleteReplay operationId =>
    { s with createFileReplay := s.createFileReplay.delete operationId.key }
  | putReplayInode inodeId operationId =>
    { s with
      createFileReplayInode := s.createFileReplayInode.put inodeId operationId }
  | deleteReplayInode inodeId =>
    { s with createFileReplayInode := s.createFileReplayInode.delete inodeId }
  | putReplayExpiry expiresAtMs operationId =>
    { s with
      createFileReplayExpiry :=
        s.createFileReplayExpiry.put (expiryKey expiresAtMs operationId) () }
  | deleteReplayExpiry expiresAtMs operationId =>
    { s with
      createFileReplayExpiry :=
        s.createFileReplayExpiry.delete (expiryKey expiresAtMs operationId) }
  | putReplayCount count => { s with createFileReplayCount := some count }

def Store.applyBatch (s : Store) (batch : WriteBatch) : Store :=
  batch.foldl BatchOp.apply s

@[simp] theorem Store.applyBatch_nil (s : Store) : s.applyBatch [] = s := rfl

@[simp] theorem Store.applyBatch_cons (s : Store) (op : BatchOp) (batch : WriteBatch) :
    s.applyBatch (op :: batch) = (op.apply s).applyBatch batch := rfl

theorem Store.applyBatch_append (s : Store) (left right : WriteBatch) :
    s.applyBatch (left ++ right) = (s.applyBatch left).applyBatch right :=
  foldl_append

/-- The storage calls whose failure the code handles.  A failure stands for a
RocksDB error, a value that does not decode, or a value that does not encode. -/
inductive StorageCall
  | readInode (inodeId : InodeId)
  | readDentry (parentInodeId : InodeId) (name : String)
  | readMount (mountId : MountId)
  | scanMounts
  | readDetachedRoot (inodeId : InodeId)
  | scanDentries (parentInodeId : InodeId)
  | readRouteEpoch
  | readMountEpoch
  | readNextInodeId
  | seekLastInode
  | readReplay (operationId : CreateFileOperationId)
  | readReplayInode (inodeId : InodeId)
  | readReplayCount
  | seekReplayExpiry
  | encodeMount (mountId : MountId)
  | encodeWorker (workerId : WorkerId)
  | encodeInode (inodeId : InodeId)
  | encodeDetachedRoot (root : DetachedRoot)
  | encodeRouteEpoch
  | encodeMountEpoch
  | encodeNextInodeId
  | encodeReplay (operationId : CreateFileOperationId)
  | encodeReplayCount
  | encodeRaftState
  | writeBatch
deriving DecidableEq

structure StorageEnv where
  fault : StorageCall → Option String
  raftStateJsonLen : AppMetadataRaftState → ℕ

def StorageEnv.Healthy (env : StorageEnv) : Prop := ∀ call, env.fault call = none

/-- One committed batch: the authority writes and the apply state with them. -/
structure JournalEntry where
  batch : WriteBatch
  raftState : AppMetadataRaftState

structure Db where
  store : Store
  raftState : Option AppMetadataRaftState
  journal : List JournalEntry
  env : StorageEnv

def Db.commit (db : Db) (batch : WriteBatch) (raftState : AppMetadataRaftState) :
    Db :=
  { db with
    store := db.store.applyBatch batch
    raftState := some raftState
    journal := db.journal ++ [⟨batch, raftState⟩] }

@[simp] theorem Db.commit_store (db : Db) (batch : WriteBatch) (raftState : AppMetadataRaftState) :
    (db.commit batch raftState).store = db.store.applyBatch batch := rfl

/-- How a storage operation ends without a value: an error the caller sees, or a
panic of an `expect` or `unreachable!`. -/
inductive Abort
  | failed (error : MetadataError)
  | panicked (message : String)
deriving DecidableEq

abbrev StorageM (α : Type) := Transaction Db Abort α

abbrev reject {α : Type} (error : MetadataError) : StorageM α :=
  Transaction.fail (.failed error)

abbrev rejectIf (condition : Prop) [Decidable condition]
    (error : MetadataError) : StorageM Unit :=
  Transaction.failIf condition (.failed error)

abbrev okOrElse {α : Type} (value : Option α) (error : MetadataError) : StorageM α :=
  Transaction.okOr value (.failed error)

def ofResult {α : Type} : MetadataResult α → StorageM α
  | .ok value => pure value
  | .error error => reject error

def query {α : Type} (call : StorageCall) (read : Store → α) : StorageM α :=
  fun db =>
    match db.env.fault call with
    | none => (.ok (read db.store), db)
    | some message => (.error (.failed (.internal message)), db)

def encode (call : StorageCall) : StorageM Unit := query call fun _ => ()

def commitAuthorityBatch (batch : WriteBatch)
    (raftState : AppMetadataRaftState) : StorageM Unit := do
  encode .encodeRaftState
  encode .writeBatch
  Transaction.update fun db => db.commit batch raftState

def commitAppliedState (raftState : AppMetadataRaftState) : StorageM Unit :=
  commitAuthorityBatch [] raftState

end Beryl
