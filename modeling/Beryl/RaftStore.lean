import Beryl.Command
import Beryl.Decimal
import Beryl.SnapshotCodec

/-!
# The Raft log and the protocol state

One storage generation holds the replicated column families, the Raft log under
zero-padded decimal keys, the protocol state and the description of the last snapshot.
Beside it a node keeps the protocol state in memory and remembers which snapshot it is
receiving.  How the replicated families are kept does not matter here.
-/

namespace Beryl

open Transaction

structure Entry (P : Type) where
  logId : LogId
  payload : P

structure EntryCodec (P : Type) where
  encode : Entry P → ByteString
  decode : ByteString → Option (Entry P)
  decode_encode : ∀ entry, decode (encode entry) = some entry

abbrev RawFamily := OrderedTable ByteString ByteString

structure Generation (F : Type) where
  families : F
  raftLog : RawFamily
  raftState : Option AppMetadataRaftState
  snapshotMeta : Option SnapshotMeta

/-- `InstallState`: the incoming snapshot, and the purge that waits for it. -/
structure InstallState where
  pendingId : Option ℕ
  deferredPurge : Option LogId
deriving DecidableEq, Repr

structure RaftNode (F : Type) where
  generation : Generation F
  memory : AppMetadataRaftState
  installs : InstallState
  poisoned : Bool

inductive RaftCall
  | readLog (index : ℕ)
  | iterateLogs
  | writeLogs
  | writeState
  | encodeEntry (logId : LogId)
  | encodeState
deriving DecidableEq

structure RaftEnv where
  fault : RaftCall → Option String
  overflowChecks : Bool

/-- What an openraft `StorageIOError` is about. -/
inductive ErrorSubject
  | writeVote
  | writeStateMachine
  | writeLogs
  | writeLogEntry (logId : LogId)
  | readLogs
  | readLogAtIndex (index : ℕ)
  | apply (logId : LogId)
  | writeSnapshot
deriving DecidableEq

inductive ErrorSource
  | metadata (error : MetadataError)
  | serde
  | io (message : String)
deriving DecidableEq

inductive StoreFailure
  | storage (subject : ErrorSubject) (source : ErrorSource)
  | panicked (message : String)
deriving DecidableEq

section Storage

variable {F P : Type}

abbrev NodeM (F : Type) (α : Type) := Transaction (RaftNode F) MetadataError α
abbrev StoreM (F : Type) (α : Type) := Transaction (RaftNode F) StoreFailure α

def call (env : RaftEnv) (which : RaftCall) (message : String → String) : NodeM F Unit :=
  match env.fault which with
  | none => pure ()
  | some error => fail (.internal (message error))

def storageError (subject : ErrorSubject) (error : MetadataError) : StoreFailure :=
  .storage subject (.metadata error)

/-- `pin_generation`: the active generation, unless the handle is poisoned. -/
def pinGeneration : NodeM F (Generation F) := do
  let node ← current
  failIf (node.poisoned = true)
    (.internal "metadata generation handle is poisoned; restart is required")
  pure node.generation

/-- `format!("{:020}", index)`. -/
def logKey (index : ℕ) : ByteString := .ofString (Decimal.padded 20 index)

def getRaftLog (env : RaftEnv) (logIndex : ℕ) : NodeM F (Option ByteString) := do
  let generation ← pinGeneration
  call env (.readLog logIndex) fun error => s!"RocksDB error: {error}"
  pure (generation.raftLog.get (logKey logIndex))

/-- The loop of `scan_raft_logs`. -/
def scanLoop (endIndexExclusive : Option ℕ) :
    Option ℕ → List (ByteString × ByteString) → MetadataResult (List (ℕ × ByteString))
  | _, [] => .ok []
  | previousIndex, (key, value) :: rest =>
    match key.toText with
    | none => .error (.internal "Invalid Raft log key encoding")
    | some text =>
      match Decimal.parseU64 text with
      | none => .error (.internal s!"Invalid Raft log index key {debugStr text}")
      | some index =>
        if endIndexExclusive.any (· ≤ index) then .ok []
        else
          match previousIndex with
          | some previous =>
            if checkedAddU64 previous 1 ≠ some index then
              .error (.internal
                s!"Raft log hole detected between indexes {previous} and {index}")
            else (scanLoop endIndexExclusive (some index) rest).map ((index, value) :: ·)
          | none => (scanLoop endIndexExclusive (some index) rest).map ((index, value) :: ·)

def scanRaftLogs (env : RaftEnv) (startIndex : ℕ) (endIndexExclusive : Option ℕ) :
    NodeM F (List (ℕ × ByteString)) := do
  let generation ← pinGeneration
  call env .iterateLogs fun error => s!"RocksDB iterator error: {error}"
  lift (scanLoop endIndexExclusive none (generation.raftLog.entriesFrom (logKey startIndex)))

/-- The first neighbours in a list of indexes that do not follow one another. -/
def firstGap : List ℕ → Option (ℕ × ℕ)
  | left :: right :: rest =>
    if checkedAddU64 left 1 = some right then firstGap (right :: rest) else some (left, right)
  | _ => none

def appendRaftLogsDurable (env : RaftEnv) (entries : List (ℕ × ByteString)) :
    NodeM F Unit := do
  let _ ← pinGeneration
  match firstGap (entries.map Prod.fst) with
  | some (left, right) => fail (.internal
      s!"Raft log append is not contiguous: {left} is followed by {right}")
  | none => do
      call env .writeLogs fun error => s!"Failed to durably append Raft logs: {error}"
      update fun node => { node with generation := { node.generation with
        raftLog := node.generation.raftLog.putAll
          (entries.map fun entry => (logKey entry.1, entry.2)) } }

def truncateRaftLogs (env : RaftEnv) (startIndex : ℕ) : NodeM F Unit := do
  let generation ← pinGeneration
  call env .iterateLogs fun error => s!"RocksDB iterator error: {error}"
  let keys := (generation.raftLog.entriesFrom (logKey startIndex)).map Prod.fst
  call env .writeLogs fun error => s!"Failed to durably truncate Raft logs: {error}"
  update fun node => { node with generation := { node.generation with
    raftLog := node.generation.raftLog.deleteAll keys } }

def purgeRaftLogsAndState (env : RaftEnv) (endIndex : ℕ) (state : AppMetadataRaftState) :
    NodeM F Unit := do
  let generation ← pinGeneration
  call env .encodeState fun error => s!"Failed to serialize Raft state: {error}"
  call env .iterateLogs fun error => s!"RocksDB iterator error: {error}"
  let keys := (generation.raftLog.entries.map Prod.fst).takeWhile (· ≤ logKey endIndex)
  call env .writeLogs fun error => s!"Failed to durably purge Raft logs: {error}"
  update fun node => { node with generation := { node.generation with
    raftLog := node.generation.raftLog.deleteAll keys
    raftState := some state } }

def getLastLogIndex (env : RaftEnv) : NodeM F (Option ℕ) := do
  let generation ← pinGeneration
  call env .iterateLogs fun error => s!"RocksDB iterator error: {error}"
  pure (match generation.raftLog.entries.getLast? with
    | none => none
    | some (key, _) => key.toText.bind fun text => Decimal.parseU64 (trim text))

def persistRaftStateDurable (env : RaftEnv) (state : AppMetadataRaftState) : NodeM F Unit := do
  let _ ← pinGeneration
  call env .encodeState fun error => s!"Failed to serialize Raft state: {error}"
  call env .writeState fun error => s!"Failed to durably persist Raft state: {error}"
  update fun node => { node with generation := { node.generation with raftState := some state } }

structure LogState where
  lastPurgedLogId : Option LogId
  lastLogId : Option LogId
deriving DecidableEq, Repr

def decodeLogEntry (codec : EntryCodec P) (index : ℕ) (data : ByteString) : StoreM F (Entry P) :=
  okOr (codec.decode data) (.storage (.readLogAtIndex index) .serde)

/-- The tail is read from the log alone, never from what was applied. -/
def getLogState (codec : EntryCodec P) (env : RaftEnv) : StoreM F LogState := do
  let node ← current
  let lastPurgedLogId := node.memory.lastPurgedLogId
  let index ← mapFailure (storageError .readLogs) (getLastLogIndex env)
  match index with
  | none => pure ⟨lastPurgedLogId, lastPurgedLogId⟩
  | some idx => do
      let bytes ← mapFailure (storageError (.readLogAtIndex idx)) (getRaftLog env idx)
      match bytes with
      | none => fail (.storage (.readLogAtIndex idx)
          (.io s!"Raft log index {idx} exists in the index scan but has no value"))
      | some bytes => do
          let entry ← decodeLogEntry codec idx bytes
          pure ⟨lastPurgedLogId, some entry.logId⟩

/-- A change of the protocol state: written through, then kept in memory. -/
def saveState (env : RaftEnv) (subject : ErrorSubject)
    (change : AppMetadataRaftState → AppMetadataRaftState) : StoreM F Unit := do
  let _ ← mapFailure (storageError subject) pinGeneration
  let node ← current
  let next := change node.memory
  mapFailure (storageError subject) (persistRaftStateDurable env next)
  update fun node => { node with memory := next }

def saveVote (env : RaftEnv) (vote : Vote) : StoreM F Unit :=
  saveState env .writeVote fun state => { state with vote := some vote }

def saveCommitted (env : RaftEnv) (committed : Option LogId) : StoreM F Unit :=
  saveState env .writeStateMachine fun state => { state with committed }

/-- The encoding loop of `append`. -/
def encodeEntries (codec : EntryCodec P) (env : RaftEnv) :
    List (Entry P) → StoreM F (List (ℕ × ByteString))
  | [] => pure []
  | entry :: rest => do
      failIf ((env.fault (.encodeEntry entry.logId)).isSome = true)
        (.storage (.writeLogEntry entry.logId) .serde)
      let encoded ← encodeEntries codec env rest
      pure ((entry.logId.index, codec.encode entry) :: encoded)

def append (codec : EntryCodec P) (env : RaftEnv) (entries : List (Entry P)) : StoreM F Unit := do
  let encoded ← encodeEntries codec env entries
  mapFailure (storageError .writeLogs) (appendRaftLogsDurable env encoded)

def truncate (env : RaftEnv) (logId : LogId) : StoreM F Unit :=
  mapFailure (storageError .writeLogs) (truncateRaftLogs env logId.index)

/-- `SnapshotInstallTracker::defer_purge`: while a snapshot is being received the
highest purge is remembered instead. -/
def deferPurge (logId : LogId) : StoreM F Bool := do
  let node ← current
  if node.installs.pendingId.isNone then pure false
  else do
    let deferredPurge :=
      if node.installs.deferredPurge.all fun deferred => decide (deferred.index < logId.index)
      then some logId else node.installs.deferredPurge
    update fun node => { node with installs := { node.installs with deferredPurge } }
    pure true

/-- `purge` once it need not wait. -/
def purgeNow (env : RaftEnv) (logId : LogId) : StoreM F Unit := do
  let _ ← mapFailure (storageError .writeLogs) pinGeneration
  let node ← current
  let next := { node.memory with lastPurgedLogId := some logId }
  mapFailure (storageError .writeLogs) (purgeRaftLogsAndState env logId.index next)
  update fun node => { node with memory := next }

def purge (env : RaftEnv) (logId : LogId) : StoreM F Unit := do
  let deferred ← deferPurge logId
  if deferred then pure () else purgeNow env logId

inductive Bound
  | included (index : ℕ)
  | excluded (index : ℕ)
  | unbounded
deriving DecidableEq, Repr

/-- `index + 1` on a machine word. -/
def nextIndex (env : RaftEnv) (index : ℕ) : StoreM F ℕ :=
  if index + 1 < 2 ^ 64 then pure (index + 1)
  else if env.overflowChecks then fail (.panicked "attempt to add with overflow")
  else pure ((index + 1) % 2 ^ 64)

def startIndex (env : RaftEnv) : Bound → StoreM F ℕ
  | .included index => pure index
  | .excluded index => nextIndex env index
  | .unbounded => pure 0

def endIndex (env : RaftEnv) : Bound → StoreM F (Option ℕ)
  | .included index => do
      let index ← nextIndex env index
      pure (some index)
  | .excluded index => pure (some index)
  | .unbounded => pure none

/-- The decoding loop of `try_get_log_entries`. -/
def decodeEntries (codec : EntryCodec P) : List (ℕ × ByteString) → StoreM F (List (Entry P))
  | [] => pure []
  | (index, data) :: rest => do
      let entry ← decodeLogEntry codec index data
      let entries ← decodeEntries codec rest
      pure (entry :: entries)

def tryGetLogEntries (codec : EntryCodec P) (env : RaftEnv) (lower upper : Bound) :
    StoreM F (List (Entry P)) := do
  let start ← startIndex env lower
  let stop ← endIndex env upper
  let rawEntries ← mapFailure (storageError .readLogs) (scanRaftLogs env start stop)
  decodeEntries codec rawEntries

end Storage

end Beryl
