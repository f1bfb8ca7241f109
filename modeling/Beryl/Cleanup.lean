import Beryl.History
import Beryl.ReplicaScan

/-!
# Candidates for the cleanup of replicas

The leader walks over the reported replicas page by page and classifies each of them.  A cycle
keeps what it has seen to itself until its last page; only then are candidates admitted,
verified for the term of the cycle, or retired.  Heartbeats select candidates that are due and
drop those that turn out not to be reclaimable any more.

All of this happens under one lock, taken for a few lines at a time.  A step of a run is a whole
call, or one of the parts of a call that are under the lock once, so that runs also have the
interleavings of a scan with heartbeats.  What the calls read elsewhere (the leader term, the
pages, the decisions, the clock) are parameters.
-/

namespace Beryl

inductive CleanupDecision
  | keep
  | wait
  | reclaimable
deriving DecidableEq, Repr

/-- The part of `BlockCleanupConfig` that the coordinator uses; durations in milliseconds. -/
structure BlockCleanupConfig where
  enabled : Bool
  groupName : GroupName
  reclaimGrace : ℕ
  maxCandidates : ℕ
  maxCommandsPerHeartbeat : ℕ
  retryInitialBackoff : ℕ
  retryMaxBackoff : ℕ

/-- Grace and retry state of one replica; instants in milliseconds. -/
structure CleanupEntry where
  firstSeen : ℕ
  notBefore : ℕ
  nextAttemptAt : ℕ
  attempts : ℕ
  verifiedTerm : ℕ
deriving DecidableEq, Repr

def CleanupEntry.isDue (entry : CleanupEntry) (term now : ℕ) : Bool :=
  entry.verifiedTerm = term && now ≥ entry.notBefore && now ≥ entry.nextAttemptAt

/-- One traversal of the reported replicas.  The two hash sets are lists; their order is of no
consequence. -/
structure CleanupScanCycle where
  leaderTerm : ℕ
  scanEndWorkerId : Option WorkerId
  nextCursor : Option ReadyReplicaCursor
  seenExisting : List ReplicaKey
  pendingNew : List ReplicaKey
deriving DecidableEq

def CleanupScanCycle.new (leaderTerm : ℕ) (scanEndWorkerId : Option WorkerId) :
    CleanupScanCycle :=
  ⟨leaderTerm, scanEndWorkerId, none, [], []⟩

abbrev CleanupEntries := HashMap ReplicaKey CleanupEntry

structure CleanupState where
  entries : CleanupEntries
  activeCycle : Option CleanupScanCycle

structure BlockCleanupCommand where
  blockId : BlockId
deriving DecidableEq

namespace CleanupState

def default : CleanupState := ⟨∅, none⟩

def observeCandidate (config : BlockCleanupConfig) (term now : ℕ) (entries : CleanupEntries)
    (replica : ReplicaKey) : CleanupEntries :=
  match entries.lookup replica with
  | some entry => entries.insert replica { entry with verifiedTerm := term }
  | none =>
    if entries.len ≥ config.maxCandidates then entries
    else entries.insert replica
      { firstSeen := now
        notBefore := now + config.reclaimGrace
        nextAttemptAt := now
        attempts := 0
        verifiedTerm := term }

def applyDecision (config : BlockCleanupConfig) :
    CleanupEntries × CleanupScanCycle → ReplicaKey × CleanupDecision →
      CleanupEntries × CleanupScanCycle
  | (entries, cycle), (replica, .keep) | (entries, cycle), (replica, .wait) =>
    (entries.erase replica, { cycle with pendingNew := cycle.pendingNew.erase replica })
  | (entries, cycle), (replica, .reclaimable) =>
    if (entries.lookup replica).isSome then
      (entries, { cycle with seenExisting := cycle.seenExisting.insert replica })
    else if replica ∈ cycle.pendingNew then (entries, cycle)
    else if entries.len + cycle.pendingNew.length < config.maxCandidates then
      (entries, { cycle with pendingNew := replica :: cycle.pendingNew })
    else (entries, cycle)

def applyDecisions (config : BlockCleanupConfig)
    (classified : List (ReplicaKey × CleanupDecision)) (entries : CleanupEntries)
    (cycle : CleanupScanCycle) : CleanupEntries × CleanupScanCycle :=
  classified.foldl (applyDecision config) (entries, cycle)

/-- The candidates at the end of a complete cycle: those not seen again are retired, the others
verified, and the new ones admitted. -/
def commitCycle (config : BlockCleanupConfig) (scanTerm now : ℕ) (entries : CleanupEntries)
    (cycle : CleanupScanCycle) : CleanupEntries :=
  let retained := entries.filterMap fun key entry =>
    if key ∈ cycle.seenExisting then some entry else none
  let verified := retained.filterMap fun _ entry => some { entry with verifiedTerm := scanTerm }
  cycle.pendingNew.foldl (observeCandidate config scanTerm now) verified

def cycleOf (state : CleanupState) (scanTerm : ℕ) (scanEndWorkerId : Option WorkerId) :
    CleanupScanCycle :=
  state.activeCycle.getD (.new scanTerm scanEndWorkerId)

/-- `apply_scan_page`: whether the page was the last one of its cycle, and the new state. -/
def applyScanPage (config : BlockCleanupConfig)
    (classified : List (ReplicaKey × CleanupDecision)) (scanTerm : ℕ)
    (scanEndWorkerId : Option WorkerId) (nextCursor : Option ReadyReplicaCursor) (now : ℕ)
    (state : CleanupState) : Bool × CleanupState :=
  let cycle := state.cycleOf scanTerm scanEndWorkerId
  if cycle.leaderTerm ≠ scanTerm ∨ cycle.scanEndWorkerId ≠ scanEndWorkerId then
    (false, { state with activeCycle := none })
  else
    let (entries, cycle) := applyDecisions config classified state.entries cycle
    match nextCursor with
    | some cursor => (false, ⟨entries, some { cycle with nextCursor := some cursor }⟩)
    | none => (true, ⟨commitCycle config scanTerm now entries cycle, none⟩)

def dropCycle (state : CleanupState) : CleanupState := { state with activeCycle := none }

/-- The range of the next page; a cycle of another term is dropped. -/
def activeRange (scanTerm : ℕ) (state : CleanupState) : CleanupState :=
  if state.activeCycle.any (·.leaderTerm ≠ scanTerm) then state.dropCycle else state

def removeEntry (key : ReplicaKey) (state : CleanupState) : CleanupState :=
  { state with entries := state.entries.erase key }

def clearEntries (state : CleanupState) : CleanupState := { state with entries := ∅ }

def retryBackoff (config : BlockCleanupConfig) (attempts : ℕ) : ℕ :=
  min (config.retryInitialBackoff * 2 ^ min (attempts - 1) 63) config.retryMaxBackoff

/-- The last lines of the loop over the due candidates: whether the candidate is selected. -/
def selectDue (config : BlockCleanupConfig) (key : ReplicaKey) (term now : ℕ)
    (state : CleanupState) : Bool × CleanupState :=
  match state.entries.lookup key with
  | none => (false, state)
  | some entry =>
    if entry.isDue term now then
      let attempts := min (entry.attempts + 1) (2 ^ 32 - 1)
      (true, { state with
        entries := state.entries.insert key
          { entry with
            attempts := attempts
            nextAttemptAt := now + retryBackoff config attempts } })
    else (false, state)

/-- What one call of `scan_once` reads, in the order of its reads: the leader term four times,
the read barrier, the end of the scan, the page, the clock and the decisions. -/
structure ScanReadings where
  leaderTerm : Option ℕ
  barrier : MetadataResult Unit
  termAfterBarrier : Option ℕ
  scanEnd : Option WorkerId
  page : Option ReadyReplicaCursor → WorkerId →
    MetadataResult (List ReplicaKey × Option ReadyReplicaCursor)
  now : ℕ
  classify : ReplicaKey → MetadataResult CleanupDecision
  termAfterClassification : Option ℕ
  termAfterPage : Option ℕ

def classifyReplicas (classify : ReplicaKey → MetadataResult CleanupDecision)
    (replicas : List ReplicaKey) : List (ReplicaKey × CleanupDecision) :=
  replicas.map fun replica =>
    (replica, match classify replica with
      | .ok decision => decision
      | .error _ => .wait)

/-- The page after the active range: none is listed when no worker has reported. -/
def nextPage (readings : ScanReadings) (state : CleanupState) :
    MetadataResult (List ReplicaKey × Option ReadyReplicaCursor) × Option WorkerId :=
  let (cursor, scanEnd) := match state.activeCycle with
    | some cycle => (cycle.nextCursor, cycle.scanEndWorkerId)
    | none => (none, readings.scanEnd)
  match scanEnd with
  | some worker => (readings.page cursor worker, scanEnd)
  | none => (.ok ([], none), scanEnd)

/-- The page that a call of `scan_once` has listed. -/
structure TakenPage where
  readings : ScanReadings
  scanTerm : ℕ
  scanEndWorkerId : Option WorkerId
  replicas : List ReplicaKey
  nextCursor : Option ReadyReplicaCursor

def TakenPage.classified (page : TakenPage) : List (ReplicaKey × CleanupDecision) :=
  classifyReplicas page.readings.classify page.replicas

/-- `scan_once` up to the listing of its page, or what it answers when it returns before. -/
def takePage (config : BlockCleanupConfig) (readings : ScanReadings) (state : CleanupState) :
    Except (MetadataResult Unit × CleanupState) (TakenPage × CleanupState) :=
  if !config.enabled then .error (.ok (), state)
  else match readings.leaderTerm with
    | none => .error (.ok (), state.dropCycle)
    | some scanTerm =>
      match readings.barrier with
      | .error error => .error (.error error, default)
      | .ok () =>
        if readings.termAfterBarrier ≠ some scanTerm then .error (.ok (), state.dropCycle)
        else
          let ranged := state.activeRange scanTerm
          match nextPage readings ranged with
          | (.error error, _) => .error (.error error, default)
          | (.ok (replicas, nextCursor), scanEnd) =>
            .ok (⟨readings, scanTerm, scanEnd, replicas, nextCursor⟩, ranged)

def scanOnce (config : BlockCleanupConfig) (readings : ScanReadings) (state : CleanupState) :
    MetadataResult Unit × CleanupState :=
  match takePage config readings state with
  | .error answer => answer
  | .ok (page, ranged) =>
    if readings.termAfterClassification ≠ some page.scanTerm then (.ok (), ranged.dropCycle)
    else
      let (_, paged) := applyScanPage config (classifyReplicas readings.classify page.replicas)
        page.scanTerm page.scanEndWorkerId page.nextCursor readings.now ranged
      if readings.termAfterPage ≠ some page.scanTerm then (.ok (), default)
      else (.ok (), paged)

structure KeyReadings where
  revalidated : MetadataResult CleanupDecision
  leaderTerm : Option ℕ
  isCurrentReady : Bool

/-- The due candidates of one worker run, least attempted first and then by block. -/
def dueKeys (groupName : GroupName) (workerId : WorkerId) (workerRunId : WorkerRunId)
    (term now : ℕ) (state : CleanupState) : List ReplicaKey :=
  let due := state.entries.entries.filter fun entry =>
    entry.1.groupName = groupName ∧ entry.1.workerId = workerId ∧
      entry.1.workerRunId = workerRunId ∧ entry.2.isDue term now
  ((due.map fun entry =>
      toLex (entry.2.attempts, toLex (entry.1.blockId.inodeId, entry.1.blockId.index))).sort
        (· ≤ ·)).map fun order =>
    ⟨groupName, workerId, workerRunId, ⟨(ofLex (ofLex order).2).1, (ofLex (ofLex order).2).2⟩⟩

/-- The loop over the due candidates.  The answer is `none` once the leader term has changed. -/
def heartbeatLoop (config : BlockCleanupConfig) (term now : ℕ)
    (readings : ReplicaKey → KeyReadings) :
    List ReplicaKey → List BlockCleanupCommand → CleanupState →
      Option (List BlockCleanupCommand) × CleanupState
  | [], commands, state => (some commands, state)
  | key :: rest, commands, state =>
    if commands.length = config.maxCommandsPerHeartbeat then (some commands, state)
    else match (readings key).revalidated with
      | .error _ | .ok .keep | .ok .wait =>
        heartbeatLoop config term now readings rest commands (state.removeEntry key)
      | .ok .reclaimable =>
        if (readings key).leaderTerm ≠ some term then (none, state.clearEntries)
        else if !(readings key).isCurrentReady then
          heartbeatLoop config term now readings rest commands (state.removeEntry key)
        else
          let (selected, state) := state.selectDue config key term now
          heartbeatLoop config term now readings rest
            (if selected then commands ++ [⟨key.blockId⟩] else commands) state

def commandsForHeartbeat (config : BlockCleanupConfig) (groupName : GroupName)
    (workerId : WorkerId) (workerRunId : WorkerRunId) (now : ℕ) (leaderTerm : Option ℕ)
    (readings : ReplicaKey → KeyReadings) (termAfterLoop : Option ℕ) (state : CleanupState) :
    List BlockCleanupCommand × CleanupState :=
  if !config.enabled ∨ groupName ≠ config.groupName then ([], state)
  else match leaderTerm with
    | none => ([], state)
    | some term =>
      match heartbeatLoop config term now readings
          (state.dueKeys groupName workerId workerRunId term now) [] state with
      | (none, state) => ([], state)
      | (some commands, state) =>
        if termAfterLoop ≠ some term then ([], state.clearEntries)
        else (commands, state)

end CleanupState

open CleanupState

/-- The two calls, and the parts of calls that overlap. -/
inductive CleanupStep
  | scanOnce (readings : ScanReadings)
  | commandsForHeartbeat (groupName : GroupName) (workerId : WorkerId)
      (workerRunId : WorkerRunId) (now : ℕ) (leaderTerm : Option ℕ)
      (readings : ReplicaKey → KeyReadings) (termAfterLoop : Option ℕ)
  | takePage (readings : ScanReadings)
  | applyPage
  | endScan
  | clearEntries
  | removeEntry (key : ReplicaKey)
  | selectDue (key : ReplicaKey) (term now : ℕ)

/-- The pages of a complete cycle, the time that was read for its last one, and what was
admitted at its end. -/
structure CompleteCycle where
  leaderTerm : ℕ
  endedAt : ℕ
  pages : List TakenPage
  admitted : List ReplicaKey

/-- The state of the coordinator and the page that a scan is about to apply, with a record of
the cycles: the pages of the active one, and all complete ones, newest first.  Nothing is decided
by the record. -/
structure CleanupWorld where
  state : CleanupState
  taken : Option TakenPage
  pages : List TakenPage
  completed : List CompleteCycle

namespace CleanupWorld

def new : CleanupWorld := ⟨.default, none, [], []⟩

/-- The pages of the cycle that a page belongs to, and the page. -/
def withPage (world : CleanupWorld) (page : TakenPage) : List TakenPage :=
  (if world.state.activeCycle.isSome then world.pages else []) ++ [page]

def admits (config : BlockCleanupConfig) (world : CleanupWorld) (page : TakenPage) :
    List ReplicaKey :=
  (applyDecisions config page.classified world.state.entries
    (world.state.cycleOf page.scanTerm page.scanEndWorkerId)).2.pendingNew

def takePage (config : BlockCleanupConfig) (readings : ScanReadings) (world : CleanupWorld) :
    CleanupWorld :=
  match world.state.takePage config readings with
  | .error (_, state) => { world with state := state, taken := none }
  | .ok (page, state) => { world with state := state, taken := some page }

def applyPage (config : BlockCleanupConfig) (world : CleanupWorld) : CleanupWorld :=
  match world.taken with
  | none => world
  | some page =>
    if page.readings.termAfterClassification ≠ some page.scanTerm then
      { world with state := world.state.dropCycle, taken := none }
    else
      let (complete, state) := world.state.applyScanPage config page.classified page.scanTerm
        page.scanEndWorkerId page.nextCursor page.readings.now
      { state := state
        taken := some page
        pages := world.withPage page
        completed := if complete then
            ⟨page.scanTerm, page.readings.now, world.withPage page, world.admits config page⟩ ::
              world.completed
          else world.completed }

def endScan (world : CleanupWorld) : CleanupWorld :=
  match world.taken with
  | none => world
  | some page =>
    { world with
      state := if page.readings.termAfterPage ≠ some page.scanTerm then .default else world.state
      taken := none }

def after (config : BlockCleanupConfig) (world : CleanupWorld) : CleanupStep → CleanupWorld
  | .scanOnce readings =>
    { ((world.takePage config readings).applyPage config).endScan with
      state := (world.state.scanOnce config readings).2 }
  | .commandsForHeartbeat groupName workerId workerRunId now leaderTerm readings termAfterLoop =>
    { world with
      state := (world.state.commandsForHeartbeat config groupName workerId workerRunId now
        leaderTerm readings termAfterLoop).2 }
  | .takePage readings => world.takePage config readings
  | .applyPage => world.applyPage config
  | .endScan => world.endScan
  | .clearEntries => { world with state := world.state.clearEntries }
  | .removeEntry key => { world with state := world.state.removeEntry key }
  | .selectDue key term now =>
    { world with state := (world.state.selectDue config key term now).2 }

end CleanupWorld

abbrev CleanupRun (config : BlockCleanupConfig) :=
  History.Run (fun world step world' => world' = CleanupWorld.after config world step)
    (fun _ _ (_ : CleanupStep) => True) CleanupWorld.new

end Beryl
