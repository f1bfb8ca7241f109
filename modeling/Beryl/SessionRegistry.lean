import Beryl.ApplyNamespace
import Beryl.FiniteMap
import Beryl.Location

/-!
# The write-session registry of the leader

`SessionRegistry` keeps the write sessions of one metadata process: openings that
wait for Raft, active sessions, and the indexes derived from them (per client, per
ancestor, by expiry, by path).  One lock protects everything, so each method is one
step on the state; the clock is read inside the step and is an argument here.

Each `expect`, `assert!` and `unreachable!` of the source is an exit of its own,
kept apart from the errors that a method returns.  Gauges are not modelled, but the
subtractions that compute them can fail and are.
-/

namespace Beryl

open Transaction

/-! ## Sessions -/

abbrev WriteOpeningId := ℕ
abbrev WritePublicationId := ℕ

/-- One predecessor-addressed `AllocateBlock` step that waits for Raft. -/
structure PendingAllocateBlock where
  previousBlockId : Option BlockId
deriving DecidableEq

structure CreateSessionReplay where
  inodeId : InodeId
  leaseEpoch : LeaseEpoch
  layout : FileLayout
  expiresAtMs : ℕ
  generation : ContentGeneration
deriving DecidableEq

structure ActiveCreateReplay where
  operationId : CreateFileOperationId
  requestDeadlineMs : ℕ
  normalizedPath : String
  mountId : MountId
  expectedMountEpoch : ℕ
  mountRootInodeId : InodeId
  response : CreateSessionReplay
deriving DecidableEq

structure WriteSession where
  inodeId : InodeId
  mountId : MountId
  leaseEpoch : LeaseEpoch
  baseSize : ℕ
  generation : ContentGeneration
  mode : WriteMode
  openClientId : ClientId
  layout : FileLayout
  expiresAtMs : ℕ
  ancestorInodeIds : List InodeId
  issuedTargets : List LocatedBlock
  issuedSteps : HashMap (Option BlockId) ℕ
  pendingAllocateBlock : Option PendingAllocateBlock
  activePublication : Option WritePublicationId
  publicationSubmitted : Bool
  createReplay : Option ActiveCreateReplay
deriving DecidableEq

structure OpeningSession where
  openingId : WriteOpeningId
  inodeId : InodeId
  mountId : MountId
  proposedLeaseEpoch : LeaseEpoch
  mode : WriteMode
  openClientId : ClientId
  layout : FileLayout
  expiresAtMs : ℕ
  ancestorInodeIds : List InodeId
deriving DecidableEq

/-- Capacity reserved before `CreateFile` has a durable inode. -/
structure CreateOpeningSession where
  openingId : WriteOpeningId
  operationId : CreateFileOperationId
  requestDeadlineMs : ℕ
  normalizedPath : String
  mountId : MountId
  expectedMountEpoch : ℕ
  mountRootInodeId : InodeId
  openClientId : ClientId
  expiresAtMs : ℕ
  parentAncestorInodeIds : List InodeId
deriving DecidableEq

inductive WriteSessionEntry
  | opening (opening : OpeningSession)
  | active (session : WriteSession)
deriving DecidableEq

def u64Max : ℕ := 2 ^ 64 - 1

def saturatingAddU64 (left right : ℕ) : ℕ := min (left + right) u64Max

namespace WriteSession

def ownedTargets (session : WriteSession) : ℕ :=
  session.issuedTargets.length + if session.pendingAllocateBlock.isSome then 1 else 0

def pendingTargets (session : WriteSession) : ℕ :=
  if session.pendingAllocateBlock.isSome then 1 else 0

def createOperation (session : WriteSession) : Option CreateFileOperationId :=
  session.createReplay.map ActiveCreateReplay.operationId

def retirementAtMs (session : WriteSession) : ℕ :=
  if session.publicationSubmitted then u64Max else session.expiresAtMs

end WriteSession

namespace WriteSessionEntry

def inodeId : WriteSessionEntry → InodeId
  | .opening session => session.inodeId
  | .active session => session.inodeId

def clientId : WriteSessionEntry → ClientId
  | .opening session => session.openClientId
  | .active session => session.openClientId

def expiresAtMs : WriteSessionEntry → ℕ
  | .opening session => session.expiresAtMs
  | .active session => session.expiresAtMs

def retirementAtMs : WriteSessionEntry → ℕ
  | .opening session => session.expiresAtMs
  | .active session => session.retirementAtMs

def ancestorInodeIds : WriteSessionEntry → List InodeId
  | .opening session => session.ancestorInodeIds
  | .active session => session.ancestorInodeIds

def isOpening : WriteSessionEntry → Bool
  | .opening _ => true
  | .active _ => false

def ownedTargets : WriteSessionEntry → ℕ
  | .opening _ => 0
  | .active session => session.ownedTargets

def pendingTargets : WriteSessionEntry → ℕ
  | .opening _ => 0
  | .active session => session.pendingTargets

def createOperation : WriteSessionEntry → Option CreateFileOperationId
  | .opening _ => none
  | .active session => session.createOperation

end WriteSessionEntry

/-! ## State -/

/-- The expiries of the sessions whose captured path contains one inode, counted. -/
abbrev AncestorActivity := HashMap InodeId (OrderedTable ℕ ℕ)

structure SessionRegistryState where
  entries : HashMap InodeId WriteSessionEntry
  createOpenings : HashMap CreateFileOperationId CreateOpeningSession
  createOpeningsByPath : HashMap (MountId × String) CreateFileOperationId
  createOpeningOperations : HashMap WriteOpeningId CreateFileOperationId
  createOpeningsByExpiry : OrderedTable (ℕ ×ₗ WriteOpeningId) Unit
  activeCreateOperations : HashMap CreateFileOperationId InodeId
  openingSessions : ℕ
  occupiedSessionsByClient : HashMap ClientId ℕ
  ancestorActivity : AncestorActivity
  entriesByExpiry : OrderedTable (ℕ ×ₗ InodeId) Unit
  nextOpeningId : ℕ
  nextPublicationId : ℕ
  outstandingWriteTargets : ℕ
  pendingWriteTargets : ℕ

def SessionRegistryState.default : SessionRegistryState where
  entries := ∅
  createOpenings := ∅
  createOpeningsByPath := ∅
  createOpeningOperations := ∅
  createOpeningsByExpiry := .empty
  activeCreateOperations := ∅
  openingSessions := 0
  occupiedSessionsByClient := ∅
  ancestorActivity := ∅
  entriesByExpiry := .empty
  nextOpeningId := 1
  nextPublicationId := 1
  outstandingWriteTargets := 0
  pendingWriteTargets := 0

/-- The fixed limits of one registry, as `SessionRegistry::new` asserts them; they
are `usize` values. -/
structure SessionRegistry where
  maxSessions : ℕ
  maxSessionsPerClient : ℕ
  maxWriteTargets : ℕ
  maxWriteTargetsPerSession : ℕ
  sessionTtlMs : ℕ
  maxSessionsPerClient_pos : 0 < maxSessionsPerClient
  maxSessionsPerClient_le : maxSessionsPerClient ≤ maxSessions
  maxWriteTargetsPerSession_pos : 0 < maxWriteTargetsPerSession
  maxWriteTargetsPerSession_le : maxWriteTargetsPerSession ≤ maxWriteTargets
  maxSessions_lt : maxSessions < 2 ^ 64
  maxWriteTargets_lt : maxWriteTargets < 2 ^ 64

/-- How a call ends early: with an error of its own, or at a failed assertion. -/
inductive Exit (E : Type)
  | refused (error : E)
  | panicked (message : String)
deriving DecidableEq

abbrev Registry (E α : Type) := Transaction SessionRegistryState (Exit E) α

namespace Registry

variable {E α : Type}

def assertThat (condition : Prop) [Decidable condition] (message : String) :
    Registry E Unit :=
  failIf (¬condition) (.panicked message)

def expect (value : Option α) (message : String) : Registry E α :=
  okOr value (.panicked message)

/-- A computation on part of the state that fails only at an assertion. -/
def expectOk : Except String α → Registry E α
  | .ok value => pure value
  | .error message => fail (.panicked message)

def refuseIf (condition : Prop) [Decidable condition] (error : E) : Registry E Unit :=
  failIf condition (.refused error)

def refuseSome (rejection : Option α) (error : α → E) : Registry E Unit :=
  match rejection with
  | some rejection => fail (.refused (error rejection))
  | none => pure ()

def tryWith {ε : Type} (error : ε → E) : Except ε α → Registry E α
  | .ok value => pure value
  | .error failure => fail (.refused (error failure))

end Registry

open Registry

section Indexes

variable {E : Type}

/-! ## Derived indexes -/

def incrementExpiryCount (expirations : OrderedTable ℕ ℕ) (expiresAtMs : ℕ) :
    OrderedTable ℕ ℕ :=
  expirations.put expiresAtMs ((expirations.get expiresAtMs).getD 0 + 1)

def decrementExpiryCount (expirations : OrderedTable ℕ ℕ) (expiresAtMs : ℕ) :
    Except String (OrderedTable ℕ ℕ) :=
  match expirations.get expiresAtMs with
  | none => .error "write session ancestor expiry must exist"
  | some 0 => .error "attempt to subtract with overflow"
  | some 1 => .ok (expirations.delete expiresAtMs)
  | some (count + 2) => .ok (expirations.put expiresAtMs (count + 1))

/-- Count one more session with this expiry at each inode of a captured path. -/
def addAncestors (expiresAtMs : ℕ) : List InodeId → AncestorActivity → AncestorActivity
  | [], activity => activity
  | ancestor :: rest, activity =>
    addAncestors expiresAtMs rest
      (activity.insert ancestor
        (incrementExpiryCount ((activity.lookup ancestor).getD .empty) expiresAtMs))

/-- Count one session less at each inode of a captured path; an inode without a
session is forgotten. -/
def releaseAncestors (missing : String) (expiresAtMs : ℕ) :
    List InodeId → AncestorActivity → Except String AncestorActivity
  | [], activity => .ok activity
  | ancestor :: rest, activity =>
    match activity.lookup ancestor with
    | none => .error missing
    | some expirations =>
      match decrementExpiryCount expirations expiresAtMs with
      | .error message => .error message
      | .ok expirations =>
        releaseAncestors missing expiresAtMs rest
          (if expirations.entries = [] then activity.erase ancestor
            else activity.insert ancestor expirations)

/-- Move one session of each inode of a captured path to another expiry. -/
def moveAncestors (previous next : ℕ) :
    List InodeId → AncestorActivity → Except String AncestorActivity
  | [], activity => .ok activity
  | ancestor :: rest, activity =>
    match activity.lookup ancestor with
    | none => .error "session ancestor index"
    | some expirations =>
      match decrementExpiryCount expirations previous with
      | .error message => .error message
      | .ok expirations =>
        moveAncestors previous next rest
          (activity.insert ancestor (incrementExpiryCount expirations next))

def setActivity (change : AncestorActivity → Except String AncestorActivity) :
    Registry E Unit := do
  let state ← current
  let activity ← expectOk (change state.ancestorActivity)
  update fun state => { state with ancestorActivity := activity }

def recordSessionGauges : Registry E Unit := do
  let state ← current
  assertThat (state.openingSessions ≤ state.entries.len)
    "opening session count cannot exceed primary entries"

def recordWriteTargetGauges : Registry E Unit := do
  let state ← current
  assertThat (state.pendingWriteTargets ≤ state.outstandingWriteTargets)
    "pending write targets cannot exceed total occupancy"

/-- `*occupied_sessions_by_client.entry(client_id).or_default() += 1`. -/
def incrementClientOccupancy (clientId : ClientId) : Registry E Unit :=
  update fun state => { state with
    occupiedSessionsByClient := state.occupiedSessionsByClient.insert clientId
      ((state.occupiedSessionsByClient.lookup clientId).getD 0 + 1) }

def decrementClientOccupancy (clientId : ClientId) : Registry E Unit := do
  let state ← current
  let count ← expect (state.occupiedSessionsByClient.lookup clientId)
    "validated write-session client occupancy must exist"
  assertThat (0 < count) "validated write-session client occupancy must be positive"
  update fun state => { state with
    occupiedSessionsByClient :=
      if count - 1 = 0 then state.occupiedSessionsByClient.erase clientId
      else state.occupiedSessionsByClient.insert clientId (count - 1) }

def releaseOpening (message : String) : Registry E Unit := do
  let state ← current
  assertThat (1 ≤ state.openingSessions) message
  update fun state => { state with openingSessions := state.openingSessions - 1 }

def releaseOutstanding (count : ℕ) (message : String) : Registry E Unit := do
  let state ← current
  assertThat (count ≤ state.outstandingWriteTargets) message
  update fun state => { state with
    outstandingWriteTargets := state.outstandingWriteTargets - count }

def releasePending (count : ℕ) (message : String) : Registry E Unit := do
  let state ← current
  assertThat (count ≤ state.pendingWriteTargets) message
  update fun state => { state with
    pendingWriteTargets := state.pendingWriteTargets - count }

def insertEntryExpiry (expiresAtMs : ℕ) (inodeId : InodeId) : Registry E Unit :=
  update fun state => { state with
    entriesByExpiry := state.entriesByExpiry.put (toLex (expiresAtMs, inodeId)) () }

def removeEntryExpiry (expiresAtMs : ℕ) (inodeId : InodeId) (message : String) :
    Registry E Unit := do
  let state ← current
  assertThat (state.entriesByExpiry.get (toLex (expiresAtMs, inodeId)) = some ()) message
  update fun state => { state with
    entriesByExpiry := state.entriesByExpiry.delete (toLex (expiresAtMs, inodeId)) }

def moveExpiryIndexes (inodeId : InodeId) (ancestors : List InodeId) (previous next : ℕ) :
    Registry E Unit := do
  removeEntryExpiry previous inodeId
    "assertion failed: state.entries_by_expiry.remove(&(previous, inode_id))"
  insertEntryExpiry next inodeId
  setActivity (moveAncestors previous next ancestors)

def removeFromIndexes (inodeId : InodeId) (entry : WriteSessionEntry) : Registry E Unit := do
  removeEntryExpiry entry.retirementAtMs inodeId "write session expiry index must exist"
  setActivity (releaseAncestors "write session ancestor index must exist"
    entry.retirementAtMs entry.ancestorInodeIds)

/-! ## Inserting and removing -/

/-- Bind the create operation of an activated session to its inode. -/
def bindCreateOperation (inodeId : InodeId) : Option CreateFileOperationId → Registry E Unit
  | none => pure ()
  | some operationId => do
      let state ← current
      assertThat (state.activeCreateOperations.lookup operationId = none)
        "assertion failed: state.active_create_operations.insert(operation_id, inode_id).is_none()"
      update fun state => { state with
        activeCreateOperations := state.activeCreateOperations.insert operationId inodeId }

def unbindCreateOperation (inodeId : InodeId) : Option CreateFileOperationId → Registry E Unit
  | none => pure ()
  | some operationId => do
      let state ← current
      assertThat (state.activeCreateOperations.lookup operationId = some inodeId)
        "assertion `left == right` failed"
      update fun state => { state with
        activeCreateOperations := state.activeCreateOperations.erase operationId }

def insertEntry (entry : WriteSessionEntry) : Registry E Unit := do
  setActivity fun activity =>
    .ok (addAncestors entry.retirementAtMs entry.ancestorInodeIds activity)
  let state ← current
  assertThat (state.entriesByExpiry.get (toLex (entry.retirementAtMs, entry.inodeId)) = none)
    "new write session expiry index must be unique"
  insertEntryExpiry entry.retirementAtMs entry.inodeId
  update fun state => { state with
    openingSessions := state.openingSessions + if entry.isOpening then 1 else 0 }
  incrementClientOccupancy entry.clientId
  bindCreateOperation entry.inodeId entry.createOperation
  let state ← current
  assertThat (state.entries.lookup entry.inodeId = none)
    "assertion failed: state.entries.insert(inode_id, entry).is_none()"
  update fun state => { state with entries := state.entries.insert entry.inodeId entry }
  recordSessionGauges

def insertCreateOpening (opening : CreateOpeningSession) : Registry E Unit := do
  let state ← current
  assertThat
    (state.createOpeningsByPath.lookup (opening.mountId, opening.normalizedPath) = none)
    "assertion failed: state.create_openings_by_path.insert(..).is_none()"
  update fun state => { state with
    createOpeningsByPath := state.createOpeningsByPath.insert
      (opening.mountId, opening.normalizedPath) opening.operationId }
  setActivity fun activity =>
    .ok (addAncestors opening.expiresAtMs opening.parentAncestorInodeIds activity)
  let state ← current
  assertThat
    (state.createOpeningsByExpiry.get (toLex (opening.expiresAtMs, opening.openingId)) = none)
    "assertion failed: state.create_openings_by_expiry.insert(..)"
  update fun state => { state with
    createOpeningsByExpiry := state.createOpeningsByExpiry.put
      (toLex (opening.expiresAtMs, opening.openingId)) () }
  let state ← current
  assertThat (state.createOpeningOperations.lookup opening.openingId = none)
    "assertion failed: state.create_opening_operations.insert(..).is_none()"
  update fun state => { state with
    createOpeningOperations :=
      state.createOpeningOperations.insert opening.openingId opening.operationId }
  incrementClientOccupancy opening.openClientId
  let state ← current
  assertThat (state.createOpenings.lookup opening.operationId = none)
    "assertion failed: state.create_openings.insert(opening.operation_id, opening).is_none()"
  update fun state => { state with
    createOpenings := state.createOpenings.insert opening.operationId opening }
  recordSessionGauges

/-- The part of `remove_create_opening` after the opening left the primary map. -/
def unindexCreateOpening (operationId : CreateFileOperationId)
    (opening : CreateOpeningSession) : Registry E Unit := do
  let state ← current
  assertThat (state.createOpeningsByPath.lookup (opening.mountId, opening.normalizedPath) =
    some operationId) "assertion `left == right` failed"
  update fun state => { state with
    createOpeningsByPath := state.createOpeningsByPath.erase
      (opening.mountId, opening.normalizedPath) }
  let state ← current
  assertThat
    (state.createOpeningsByExpiry.get (toLex (opening.expiresAtMs, opening.openingId)) = some ())
    "assertion failed: state.create_openings_by_expiry.remove(..)"
  update fun state => { state with
    createOpeningsByExpiry := state.createOpeningsByExpiry.delete
      (toLex (opening.expiresAtMs, opening.openingId)) }
  let state ← current
  assertThat (state.createOpeningOperations.lookup opening.openingId = some operationId)
    "assertion `left == right` failed"
  update fun state => { state with
    createOpeningOperations := state.createOpeningOperations.erase opening.openingId }
  setActivity (releaseAncestors "create opening ancestor index must exist"
    opening.expiresAtMs opening.parentAncestorInodeIds)
  decrementClientOccupancy opening.openClientId
  recordSessionGauges

def removeCreateOpening (operationId : CreateFileOperationId) :
    Registry E (Option CreateOpeningSession) := do
  let state ← current
  match state.createOpenings.lookup operationId with
  | none => pure none
  | some opening => do
      update fun state => { state with
        createOpenings := state.createOpenings.erase operationId }
      unindexCreateOpening operationId opening
      pure (some opening)

def releaseEntryOpening (entry : WriteSessionEntry) : Registry E Unit :=
  if entry.isOpening then releaseOpening "opening entry must own one opening count"
  else pure ()

/-- The part of `remove_entry` after the entry left the primary map. -/
def unindexEntry (inodeId : InodeId) (entry : WriteSessionEntry) : Registry E Unit := do
  unbindCreateOperation inodeId entry.createOperation
  releaseEntryOpening entry
  removeFromIndexes inodeId entry
  decrementClientOccupancy entry.clientId
  releaseOutstanding entry.ownedTargets
    "removed session targets must be included in global occupancy"
  releasePending entry.pendingTargets
    "removed session pending target must be included in pending occupancy"
  recordSessionGauges
  recordWriteTargetGauges

def removeEntry (inodeId : InodeId) : Registry E (Option WriteSessionEntry) := do
  let state ← current
  match state.entries.lookup inodeId with
  | none => pure none
  | some entry => do
      assertThat (0 < (state.occupiedSessionsByClient.lookup entry.clientId).getD 0)
        "write session entry must own one client capacity slot"
      update fun state => { state with entries := state.entries.erase inodeId }
      unindexEntry inodeId entry
      pure (some entry)

/-! ## Expiry -/

def maxExpiredSessionRetirementsPerCall : ℕ := 64

inductive NextExpiry
  | session (expiresAtMs : ℕ) (inodeId : InodeId)
  | create (expiresAtMs : ℕ) (openingId : WriteOpeningId)

def NextExpiry.expiresAtMs : NextExpiry → ℕ
  | session expiresAtMs _ => expiresAtMs
  | create expiresAtMs _ => expiresAtMs

/-- The deadline a sweep looks at next; at a tie the session goes first. -/
def nextExpiry (state : SessionRegistryState) : Option NextExpiry :=
  match state.entriesByExpiry.entries.head?, state.createOpeningsByExpiry.entries.head? with
  | none, none => none
  | none, some (key, _) => some (.create (ofLex key).1 (ofLex key).2)
  | some (key, _), none => some (.session (ofLex key).1 (ofLex key).2)
  | some (key, _), some (createKey, _) =>
    if (ofLex createKey).1 < (ofLex key).1 then
      some (.create (ofLex createKey).1 (ofLex createKey).2)
    else some (.session (ofLex key).1 (ofLex key).2)

def retireNext : NextExpiry → Registry E Unit
  | .create _ openingId => do
      let state ← current
      let operationId ← expect (state.createOpeningOperations.lookup openingId)
        "CreateFile expiry must identify an operation"
      let removed ← removeCreateOpening operationId
      assertThat (removed.isSome)
        "assertion failed: Self::remove_create_opening(state, operation_id).is_some()"
  | .session expiresAtMs inodeId => do
      let removed ← removeEntry inodeId
      update fun state => if removed.isNone then { state with
          entriesByExpiry := state.entriesByExpiry.delete (toLex (expiresAtMs, inodeId)) }
        else state

/-- The loop of `retire_expired_entries` with the budget that is left; it returns
how many entries it retired. -/
def retireLoop (nowMs : ℕ) : ℕ → Registry E ℕ
  | 0 => pure 0
  | budget + 1 => do
      let state ← current
      match nextExpiry state with
      | none => pure 0
      | some next =>
        if next.expiresAtMs > nowMs then pure 0
        else do
          retireNext next
          let retired ← retireLoop nowMs budget
          pure (retired + 1)

def retireExpiredEntries (nowMs : ℕ) : Registry E ℕ :=
  retireLoop nowMs maxExpiredSessionRetirementsPerCall

def retireExpiredCreateOpeningForOperation (operationId : CreateFileOperationId)
    (nowMs : ℕ) : Registry E Bool := do
  let state ← current
  match state.createOpenings.lookup operationId with
  | none => pure false
  | some opening =>
    if opening.expiresAtMs ≤ nowMs then do
      let removed ← removeCreateOpening operationId
      pure removed.isSome
    else pure false

def retireExpiredEntryForInode (inodeId : InodeId) (nowMs : ℕ) : Registry E Bool := do
  let state ← current
  match state.entries.lookup inodeId with
  | none => pure false
  | some entry =>
    if entry.retirementAtMs ≤ nowMs then do
      let removed ← removeEntry inodeId
      pure removed.isSome
    else pure false

def retireFor (inodeId : InodeId) (nowMs : ℕ) : Registry E Unit := do
  let _ ← retireExpiredEntryForInode inodeId nowMs
  let _ ← retireExpiredEntries nowMs
  pure ()

end Indexes

end Beryl
