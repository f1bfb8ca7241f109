import Beryl.Paging
import Beryl.WorkerIndex

/-!
# Scanning the ready replicas

The cleanup walks over the published ready replicas of a group in bounded pages.  A page
counts every replica it lists and every worker that has none to list; it resumes after the
position it ended at.  The bound on workers is fixed for a whole scan, the bound on blocks
is fixed when a worker is entered, so that reports arriving meanwhile cannot prolong it.
-/

namespace Beryl

open PageItem OrderedSet List

/-! ## Pages -/

structure ReplicaKey where
  groupName : GroupName
  workerId : WorkerId
  workerRunId : WorkerRunId
  blockId : BlockId
deriving DecidableEq

structure ReadyReplicaCursor where
  workerId : WorkerId
  blockId : Option BlockId
  workerEndBlockId : Option BlockId
deriving DecidableEq

/-- Positions are ordered by worker, then by block; the end of a worker is after its blocks. -/
def ReadyReplicaCursor.position (cursor : ReadyReplicaCursor) : WorkerId ×ₗ WithTop BlockId :=
  toLex (cursor.workerId, cursor.blockId.elim ⊤ WithTop.some)

structure ReadyReplicaPage where
  replicas : List ReplicaKey
  nextCursor : Option ReadyReplicaCursor
deriving DecidableEq

namespace WorkerManager

inductive WorkerVisit
  | finished (outcome : PageOutcome ReadyReplicaCursor ReplicaKey)
  | continued (progress : PageProgress ReplicaKey)

/-- The active baseline of the registered run, when it has ready blocks. -/
def readableBaseline (manager : WorkerManager) (key : WorkerRegistrationKey)
    (report : WorkerBlockReportRuntime) : Option ActiveBlockReport :=
  report.active.filter fun active =>
    manager.hasRegisteredRun key report.workerRunId && !active.readyBlocks.toList.isEmpty

/-- The block bound of a worker: the one of the cursor, or its last ready block. -/
def workerEndOf (key : WorkerRegistrationKey) (active : ActiveBlockReport)
    (cursor : Option ReadyReplicaCursor) : Option BlockId :=
  ((cursor.filter fun cursor => cursor.workerId = key.workerId).bind
    ReadyReplicaCursor.workerEndBlockId).or active.readyBlocks.toList.getLast?

def afterBlockOf (key : WorkerRegistrationKey) (cursor : Option ReadyReplicaCursor) :
    Option BlockId :=
  (cursor.filter fun cursor => cursor.workerId = key.workerId).bind ReadyReplicaCursor.blockId

def rangeOf (active : ActiveBlockReport) (afterBlock : Option BlockId) (workerEnd : BlockId) :
    List BlockId :=
  active.readyBlocks.toList.filter fun blockId =>
    afterBlock.all (· < blockId) && blockId ≤ workerEnd

def readyBlockRange (active : ActiveBlockReport) (afterBlock : Option BlockId)
    (workerEnd : BlockId) : Except (Exit MetadataError) (List BlockId) :=
  if afterBlock.any (workerEnd < ·) then
    .error (.panicked "range start is greater than range end in BTreeSet")
  else
    .ok (rangeOf active afterBlock workerEnd)

def visitBlocks (key : WorkerRegistrationKey) (workerRunId : WorkerRunId)
    (blocks : ReportedBlocks) (isEndWorker : Bool) (workerEnd : BlockId) (limit : ℕ) :
    List BlockId → PageProgress ReplicaKey → Except (Exit MetadataError) WorkerVisit
  | [], progress => .ok (.continued progress)
  | blockId :: rest, progress =>
    match blocks.lookup blockId with
    | none => .error (.refused (.internal s!"Ready block index is missing report state for group_name={key.groupName.asStr}, worker_id={key.workerId}, block_id={blockId.display}"))
    | some block =>
      if block.blockState ≠ .ready then
        .error (.refused (.internal s!"Ready block index contains non-Ready report state for group_name={key.groupName.asStr}, worker_id={key.workerId}, block_id={blockId.display}"))
      else
        let progress : PageProgress ReplicaKey :=
          ⟨progress.values ++ [⟨key.groupName, key.workerId, workerRunId, blockId⟩],
            progress.visited + 1⟩
        if blockId = workerEnd then
          if isEndWorker then .ok (.finished ⟨progress, none⟩)
          else if progress.visited = limit then
            .ok (.finished ⟨progress, some ⟨key.workerId, none, none⟩⟩)
          else .ok (.continued progress)
        else if progress.visited = limit then
          .ok (.finished ⟨progress, some ⟨key.workerId, some blockId, some workerEnd⟩⟩)
        else visitBlocks key workerRunId blocks isEndWorker workerEnd limit rest progress

/-- After the block loop: a worker without a block in range counts as one. -/
def afterBlocks (key : WorkerRegistrationKey) (isEndWorker : Bool) (limit : ℕ)
    (progress : PageProgress ReplicaKey) : WorkerVisit → Except (Exit MetadataError) WorkerVisit
  | .finished outcome => .ok (.finished outcome)
  | .continued after =>
    if after.values.length = progress.values.length then
      let after : PageProgress ReplicaKey := ⟨after.values, after.visited + 1⟩
      if after.visited = limit && !isEndWorker then
        .ok (.finished ⟨after, some ⟨key.workerId, none, none⟩⟩)
      else if isEndWorker then .ok (.finished ⟨after, none⟩)
      else .ok (.continued after)
    else if isEndWorker then .ok (.finished ⟨after, none⟩)
    else .ok (.continued after)

def visitBaseline (key : WorkerRegistrationKey) (workerRunId : WorkerRunId)
    (active : ActiveBlockReport) (cursor : Option ReadyReplicaCursor) (isEndWorker : Bool)
    (limit : ℕ) (progress : PageProgress ReplicaKey) :
    Except (Exit MetadataError) WorkerVisit := do
  let workerEnd ←
    match workerEndOf key active cursor with
    | some workerEnd => .ok workerEnd
    | none => .error (.panicked "non-empty Ready report has a last block")
  let range ← readyBlockRange active (afterBlockOf key cursor) workerEnd
  let visit ← visitBlocks key workerRunId active.blocks isEndWorker workerEnd limit range progress
  afterBlocks key isEndWorker limit progress visit

def visitUnreadable (key : WorkerRegistrationKey) (isEndWorker : Bool) (limit : ℕ)
    (progress : PageProgress ReplicaKey) : WorkerVisit :=
  let progress : PageProgress ReplicaKey := ⟨progress.values, progress.visited + 1⟩
  if isEndWorker then .finished ⟨progress, none⟩
  else if progress.visited = limit then .finished ⟨progress, some ⟨key.workerId, none, none⟩⟩
  else .continued progress

def visitWorker (manager : WorkerManager) (cursor : Option ReadyReplicaCursor)
    (scanEndWorkerId : WorkerId) (limit : ℕ) (key : WorkerRegistrationKey)
    (report : WorkerBlockReportRuntime) (progress : PageProgress ReplicaKey) :
    Except (Exit MetadataError) WorkerVisit :=
  let isEndWorker : Bool := key.workerId = scanEndWorkerId
  match manager.readableBaseline key report with
  | none => .ok (visitUnreadable key isEndWorker limit progress)
  | some active => visitBaseline key report.workerRunId active cursor isEndWorker limit progress

def visitWorkers (manager : WorkerManager) (groupName : GroupName)
    (cursor : Option ReadyReplicaCursor) (scanEndWorkerId : WorkerId) (limit : ℕ) :
    List (WorkerRegistrationKey × WorkerBlockReportRuntime) → PageProgress ReplicaKey →
      Except (Exit MetadataError) (PageOutcome ReadyReplicaCursor ReplicaKey)
  | [], progress => .ok ⟨progress, none⟩
  | (key, report) :: rest, progress =>
    if key.groupName ≠ groupName then .ok ⟨progress, none⟩
    else if scanEndWorkerId < key.workerId then .ok ⟨progress, none⟩
    else if cursor.any fun cursor => cursor.workerId = key.workerId ∧ cursor.blockId = none then
      visitWorkers manager groupName cursor scanEndWorkerId limit rest progress
    else
      match visitWorker manager cursor scanEndWorkerId limit key report progress with
      | .error exit => .error exit
      | .ok (.finished outcome) => .ok outcome
      | .ok (.continued progress) =>
        visitWorkers manager groupName cursor scanEndWorkerId limit rest progress

def visitReadyReplicas (manager : WorkerManager) (groupName : GroupName)
    (cursor : Option ReadyReplicaCursor) (scanEndWorkerId : WorkerId) (limit : ℕ) :
    Except (Exit MetadataError) (PageOutcome ReadyReplicaCursor ReplicaKey) :=
  if limit = 0 then
    .error (.refused (.invalidArgument "ready replica page limit must be greater than zero"))
  else if cursor.any fun cursor => scanEndWorkerId < cursor.workerId ∨
      (cursor.workerId = scanEndWorkerId ∧ cursor.blockId = none) then
    .ok ⟨⟨[], 0⟩, none⟩
  else if cursor.any fun cursor => cursor.blockId.isSome ∧ cursor.workerEndBlockId = none then
    .error (.refused (.internal "ready replica cursor is missing its worker block end"))
  else
    let startWorkerId := (cursor.map ReadyReplicaCursor.workerId).getD 0
    visitWorkers manager groupName cursor scanEndWorkerId limit
      (manager.reports.entriesFrom ⟨groupName, startWorkerId⟩) ⟨[], 0⟩

def listReadyReplicaPage (manager : WorkerManager) (groupName : GroupName)
    (cursor : Option ReadyReplicaCursor) (scanEndWorkerId : WorkerId) (limit : ℕ) :
    Except (Exit MetadataError) ReadyReplicaPage :=
  (manager.visitReadyReplicas groupName cursor scanEndWorkerId limit).map fun outcome =>
    ⟨outcome.values, outcome.next⟩

/-! ## The stream of a scan -/

abbrev ReplicaItem := PageItem ReadyReplicaCursor ReplicaKey

def emptyItem (key : WorkerRegistrationKey) (isEndWorker : Bool) : ReplicaItem :=
  ⟨⟨key.workerId, none, none⟩, none, isEndWorker⟩

def blockItem (key : WorkerRegistrationKey) (workerRunId : WorkerRunId) (isEndWorker : Bool)
    (workerEnd blockId : BlockId) : ReplicaItem where
  mark :=
    if blockId = workerEnd then ⟨key.workerId, none, none⟩
    else ⟨key.workerId, some blockId, some workerEnd⟩
  value := some ⟨key.groupName, key.workerId, workerRunId, blockId⟩
  final := isEndWorker && blockId = workerEnd

def blockItems (key : WorkerRegistrationKey) (workerRunId : WorkerRunId) (isEndWorker : Bool)
    (workerEnd : BlockId) (range : List BlockId) : List ReplicaItem :=
  if range = [] then [emptyItem key isEndWorker]
  else range.map (blockItem key workerRunId isEndWorker workerEnd)

def workerItems (manager : WorkerManager) (cursor : Option ReadyReplicaCursor)
    (scanEndWorkerId : WorkerId) (key : WorkerRegistrationKey)
    (report : WorkerBlockReportRuntime) : List ReplicaItem :=
  let isEndWorker : Bool := key.workerId = scanEndWorkerId
  if cursor.any fun cursor => cursor.workerId = key.workerId ∧ cursor.blockId = none then []
  else
    match manager.readableBaseline key report with
    | none => [emptyItem key isEndWorker]
    | some active =>
      match workerEndOf key active cursor with
      | none => []
      | some workerEnd =>
        blockItems key report.workerRunId isEndWorker workerEnd
          (rangeOf active (afterBlockOf key cursor) workerEnd)

def inScan (groupName : GroupName) (scanEndWorkerId : WorkerId)
    (key : WorkerRegistrationKey) : Bool :=
  key.groupName = groupName && key.workerId ≤ scanEndWorkerId

def scanItems (manager : WorkerManager) (groupName : GroupName)
    (cursor : Option ReadyReplicaCursor) (scanEndWorkerId : WorkerId)
    (entries : List (WorkerRegistrationKey × WorkerBlockReportRuntime)) : List ReplicaItem :=
  (entries.filter fun entry => inScan groupName scanEndWorkerId entry.1).flatMap fun entry =>
    manager.workerItems cursor scanEndWorkerId entry.1 entry.2

def WorkerVisit.resume (limit : ℕ) (items : List ReplicaItem) :
    WorkerVisit → PageOutcome ReadyReplicaCursor ReplicaKey
  | .finished outcome => outcome
  | .continued progress => PageItem.takePage limit items progress

variable {manager : WorkerManager} {groupName : GroupName} {cursor : Option ReadyReplicaCursor}
  {scanEndWorkerId : WorkerId} {limit : ℕ} {key : WorkerRegistrationKey}
  {report : WorkerBlockReportRuntime} {workerRunId : WorkerRunId} {blocks : ReportedBlocks}
  {isEndWorker : Bool} {workerEnd : BlockId} {items : List ReplicaItem} {visit : WorkerVisit}
  {range : List BlockId} {active : ActiveBlockReport} {progress : PageProgress ReplicaKey}
  {outcome : PageOutcome ReadyReplicaCursor ReplicaKey} {item : ReplicaItem}

theorem visitBlocks_eq_takePage : ∀ {range : List BlockId} {progress : PageProgress ReplicaKey},
      range.Pairwise (· < ·) → (∀ blockId ∈ range, blockId ≤ workerEnd) →
      visitBlocks key workerRunId blocks isEndWorker workerEnd limit range progress = .ok visit →
      takePage limit
        (range.map (blockItem key workerRunId isEndWorker workerEnd) ++ items) progress =
        visit.resume limit items := by
  intro range
  induction range with
  | nil =>
    intro progress _ _ h
    cases h
    rfl
  | cons blockId rest ih =>
    intro progress hascending hbound h
    obtain ⟨hhead, hrest⟩ := pairwise_cons.1 hascending
    unfold visitBlocks at h
    split at h
    · cases h
    · split at h
      · cases h
      · dsimp only at h
        rw [map_cons, cons_append]
        unfold takePage
        dsimp only [PageItem.visit, blockItem, Option.toList]
        split at h
        next hlast =>
          have hnone : rest = [] := by
            rw [eq_nil_iff_forall_not_mem]
            intro other hmem
            have hle := hbound other (mem_cons_of_mem _ hmem)
            rw [← hlast] at hle
            exact absurd (hhead other hmem) (not_lt.2 hle)
          subst hnone
          split at h
          next hend =>
            cases h
            simp [hend, hlast, WorkerVisit.resume]
          next hend =>
            split at h
            next hfull =>
              cases h
              simp [hend, hlast, hfull, WorkerVisit.resume]
            next hroom =>
              cases h
              simp [hend, hroom, WorkerVisit.resume]
        next hmore =>
          split at h
          next hfull =>
            cases h
            simp [hmore, hfull, WorkerVisit.resume]
          next hroom =>
            have hstep := ih hrest (fun other hmem => hbound other (mem_cons_of_mem _ hmem)) h
            simp only [hmore, decide_false, Bool.and_false, Bool.false_eq_true, if_false, hroom]
            exact hstep

theorem length_of_visitBlocks {after : PageProgress ReplicaKey} :
    ∀ {range : List BlockId} {progress : PageProgress ReplicaKey},
      visitBlocks key workerRunId blocks isEndWorker workerEnd limit range progress =
        .ok (.continued after) →
      (range = [] ∧ after = progress) ∨ progress.values.length < after.values.length := by
  intro range
  induction range with
  | nil =>
    intro progress h
    cases h
    exact .inl ⟨rfl, rfl⟩
  | cons blockId range ih =>
    intro progress h
    right
    unfold visitBlocks at h
    split at h
    · cases h
    · split at h
      · cases h
      · dsimp only at h
        split at h
        · split at h
          · cases h
          · split at h
            · cases h
            · cases h
              simp
        · split at h
          · cases h
          · rcases ih h with ⟨_, hsame⟩ | hlonger
            · rw [hsame]
              simp
            · simp only [length_append, length_singleton] at hlonger
              omega

theorem visitBlocks_ok (hready : ∀ blockId ∈ range, isReady blocks blockId = true) :
    ∀ progress : PageProgress ReplicaKey,
    ∃ visit, visitBlocks key workerRunId blocks isEndWorker workerEnd limit range progress =
      .ok visit := by
  induction range with
  | nil =>
    intro progress
    exact ⟨_, rfl⟩
  | cons blockId range ih =>
    intro progress
    obtain ⟨block, hblock, hstate⟩ := isReady_iff.1 (hready blockId mem_cons_self)
    have hrest := ih fun other hmem => hready other (mem_cons_of_mem _ hmem)
    unfold visitBlocks
    rw [hblock]
    dsimp only
    rw [if_neg (not_not.2 hstate)]
    split_ifs
    · exact ⟨_, rfl⟩
    · exact ⟨_, rfl⟩
    · exact ⟨_, rfl⟩
    · exact ⟨_, rfl⟩
    · exact hrest _

theorem mem_rangeOf {afterBlock : Option BlockId} {blockId : BlockId} :
    blockId ∈ rangeOf active afterBlock workerEnd ↔
      blockId ∈ active.readyBlocks ∧ (∀ after ∈ afterBlock, after < blockId) ∧
        blockId ≤ workerEnd := by
  unfold rangeOf
  cases afterBlock <;> simp [mem_toList]

theorem rangeOf_ascending (active : ActiveBlockReport) (afterBlock : Option BlockId)
    (workerEnd : BlockId) : (rangeOf active afterBlock workerEnd).Pairwise (· < ·) :=
  (toList_ascending active.readyBlocks).filter _

theorem visitUnreadable_eq_takePage (items : List ReplicaItem)
    (progress : PageProgress ReplicaKey) :
    PageItem.takePage limit (emptyItem key isEndWorker :: items) progress =
      (visitUnreadable key isEndWorker limit progress).resume limit items := by
  unfold visitUnreadable takePage
  cases isEndWorker with
  | true => simp [emptyItem, visit, WorkerVisit.resume]
  | false =>
    by_cases hfull : progress.visited + 1 = limit
    · simp [emptyItem, visit, hfull, WorkerVisit.resume]
    · simp [emptyItem, visit, hfull, WorkerVisit.resume]

theorem afterBlocks_eq_takePage {inner : WorkerVisit} (hascending : range.Pairwise (· < ·))
    (hbound : ∀ blockId ∈ range, blockId ≤ workerEnd) (hend : isEndWorker = true → items = [])
    (hinner : visitBlocks key workerRunId blocks isEndWorker workerEnd limit range progress = .ok
      inner) (h : afterBlocks key isEndWorker limit progress inner = .ok visit) :
    PageItem.takePage limit (blockItems key workerRunId isEndWorker workerEnd range ++ items)
      progress = visit.resume limit items := by
  have hpage : takePage limit (range.map (blockItem key workerRunId
      isEndWorker workerEnd) ++ items) progress = inner.resume limit items :=
    visitBlocks_eq_takePage hascending hbound hinner
  unfold blockItems
  cases inner with
  | finished =>
    cases h
    have hne : range ≠ [] := by
      rintro rfl
      cases hinner
    rw [if_neg hne]
    exact hpage
  | continued =>
    unfold afterBlocks at h
    dsimp only at h
    rcases length_of_visitBlocks hinner with ⟨hnone, hsame⟩ | hlonger
    · rw [if_pos (congrArg (fun p => p.values.length) hsame)] at h
      rw [if_pos hnone, singleton_append, visitUnreadable_eq_takePage]
      unfold visitUnreadable
      rw [hsame] at h
      cases isEndWorker with
      | true =>
        simp only [Bool.not_true, Bool.and_false, Bool.false_eq_true, if_false, if_true] at h ⊢
        cases h
        rfl
      | false =>
        simp only [Bool.not_false, Bool.and_true, Bool.false_eq_true, if_false,
          decide_eq_true_eq] at h ⊢
        split at h
        next hfull =>
          cases h
          rw [if_pos hfull]
        next hroom =>
          cases h
          rw [if_neg hroom]
    · have hne : range ≠ [] := by
        rintro rfl
        cases hinner
        exact absurd rfl hlonger.ne
      rw [if_neg hlonger.ne'] at h
      rw [if_neg hne, hpage]
      split at h
      next heq =>
        cases h
        rw [hend heq]
        rfl
      · cases h
        rfl

theorem visitBaseline_eq_takePage (hend : isEndWorker = true → items = [])
    (hlast : workerEndOf key active cursor = some workerEnd)
    (h : visitBaseline key workerRunId active cursor isEndWorker limit progress = .ok visit) :
    takePage limit (blockItems key workerRunId isEndWorker workerEnd
      (rangeOf active (afterBlockOf key cursor) workerEnd) ++ items) progress =
      visit.resume limit items := by
  unfold visitBaseline at h
  rw [hlast] at h
  simp only [bind, Except.bind, readyBlockRange] at h
  split at h
  · cases h
  next range hrange =>
    split at hrange
    · cases hrange
    · cases hrange
      split at h
      · cases h
      next inner hinner =>
        exact afterBlocks_eq_takePage (rangeOf_ascending _ _ _)
          (fun blockId hmem => (mem_rangeOf.1 hmem).2.2) hend hinner h

/-- One worker is the page over its items.  After the last worker of the scan there are none. -/
theorem visitWorker_eq_takePage
    (hconsumed : ¬ (cursor.any fun cursor => cursor.workerId = key.workerId ∧ cursor.blockId =
      none) = true) (hend : key.workerId = scanEndWorkerId → items = [])
    (h : visitWorker manager cursor scanEndWorkerId limit key report progress = .ok visit) :
    takePage limit (manager.workerItems cursor scanEndWorkerId key report ++ items)
      progress = visit.resume limit items := by
  unfold visitWorker at h
  unfold workerItems
  dsimp only at h ⊢
  rw [if_neg hconsumed]
  have hend : decide (key.workerId = scanEndWorkerId) = true → items = [] := by
    intro heq
    exact hend (of_decide_eq_true heq)
  cases hbaseline : manager.readableBaseline key report with
  | none =>
    rw [hbaseline] at h
    cases h
    exact visitUnreadable_eq_takePage items progress
  | some active =>
    rw [hbaseline] at h
    dsimp only at h ⊢
    cases hlast : workerEndOf key active cursor with
    | none =>
      unfold visitBaseline at h
      rw [hlast] at h
      cases h
    | some => exact visitBaseline_eq_takePage hend hlast h

/-! ## The worker loop -/

theorem key_lt_iff {left right : WorkerRegistrationKey} : left < right ↔
    left.groupName.asStr < right.groupName.asStr ∨
      left.groupName = right.groupName ∧ left.workerId < right.workerId := by
  change toLex (left.groupName.asStr, left.workerId) <
    toLex (right.groupName.asStr, right.workerId) ↔ _
  rw [Prod.Lex.toLex_lt_toLex]
  have hname : left.groupName.asStr = right.groupName.asStr ↔ left.groupName = right.groupName := by
    constructor
    · intro h
      obtain ⟨⟨name, valid⟩, _⟩ := left
      obtain ⟨⟨name', valid'⟩, _⟩ := right
      cases h
      rfl
    · intro h
      rw [h]
  rw [hname]

theorem not_inScan_of_lt {start other : WorkerRegistrationKey}
    (hgroup : start.groupName = groupName)
    (hstart : start ≤ key) (hout : inScan groupName scanEndWorkerId key = false)
    (hlt : key < other) : inScan groupName scanEndWorkerId other = false := by
  unfold inScan at hout ⊢
  simp only [Bool.and_eq_false_iff, decide_eq_false_iff_not, not_le] at hout ⊢
  by_contra hin
  rw [not_or, not_not, not_lt] at hin
  obtain ⟨hsame, hle⟩ := hin
  have hkey : key.groupName = groupName := by
    rcases hstart.lt_or_eq with hbefore | hbefore
    · rcases key_lt_iff.1 hbefore with habove | ⟨heq, _⟩
      · rcases key_lt_iff.1 hlt with hbelow | ⟨heq, _⟩
        · rw [hsame, ← hgroup] at hbelow
          exact absurd habove hbelow.asymm
        · rw [heq, hsame]
      · rw [← heq, hgroup]
    · rw [← hbefore, hgroup]
  rcases hout with hne | hafter
  · exact hne hkey
  · rcases key_lt_iff.1 hlt with hbelow | ⟨_, hworker⟩
    · rw [hkey, hsame] at hbelow
      exact lt_irrefl _ hbelow
    · exact absurd hle (not_le.2 (hafter.trans hworker))

theorem visitWorkers_eq_takePage {start : WorkerRegistrationKey}
    (hgroup : start.groupName = groupName) :
    ∀ {entries : List (WorkerRegistrationKey × WorkerBlockReportRuntime)}
      {progress : PageProgress ReplicaKey}, entries.Pairwise (fun left right => left.1 < right.1) →
      (∀ entry ∈ entries, start ≤ entry.1) →
      manager.visitWorkers groupName cursor scanEndWorkerId limit entries progress = .ok outcome →
      outcome = takePage limit
        (manager.scanItems groupName cursor scanEndWorkerId entries) progress := by
  intro entries
  induction entries with
  | nil =>
    intro progress _ _ h
    cases h
    rfl
  | cons entry rest ih =>
    intro progress hascending hstart h
    obtain ⟨key, report⟩ := entry
    obtain ⟨hhead, hrest⟩ := pairwise_cons.1 hascending
    have hstartRest := fun entry hmem => hstart entry (mem_cons_of_mem _ hmem)
    have hstartKey := hstart _ mem_cons_self
    have hstop : inScan groupName scanEndWorkerId key = false →
        manager.scanItems groupName cursor scanEndWorkerId ((key, report) :: rest) = [] := by
      intro hout
      unfold scanItems
      rw [filter_eq_nil_iff.2, flatMap_nil]
      intro entry hmem
      rw [Bool.not_eq_true]
      rcases mem_cons.1 hmem with rfl | hmem
      · exact hout
      · exact not_inScan_of_lt hgroup hstartKey hout (hhead entry hmem)
    unfold visitWorkers at h
    split at h
    next hother =>
      cases h
      rw [hstop (by simp [inScan, hother])]
      rfl
    next hsame =>
      split at h
      next hafter =>
        cases h
        rw [hstop (by simp [inScan, hafter])]
        rfl
      next hbefore =>
        have hin : inScan groupName scanEndWorkerId key = true := by
          simp [inScan, not_not.1 hsame, not_lt.1 hbefore]
        have hitems : manager.scanItems groupName cursor scanEndWorkerId
            ((key, report) :: rest) = manager.workerItems cursor scanEndWorkerId key report ++
              manager.scanItems groupName cursor scanEndWorkerId rest := by
          unfold scanItems
          rw [filter_cons, if_pos hin, flatMap_cons]
        rw [hitems]
        split at h
        next hconsumed =>
          have hnone : manager.workerItems cursor scanEndWorkerId key report = [] := by
            unfold workerItems
            exact if_pos hconsumed
          rw [hnone, nil_append]
          exact ih hrest hstartRest h
        next hconsumed =>
          have hend : key.workerId = scanEndWorkerId →
              manager.scanItems groupName cursor scanEndWorkerId rest = [] := by
            intro hlast
            unfold scanItems
            rw [filter_eq_nil_iff.2, flatMap_nil]
            intro entry hmem
            unfold inScan
            simp only [Bool.and_eq_true, decide_eq_true_eq, not_and, not_le]
            intro hgroup'
            rcases key_lt_iff.1 (hhead entry hmem) with hbelow | ⟨_, hworker⟩
            · rw [not_not.1 hsame, hgroup'] at hbelow
              exact absurd hbelow (lt_irrefl _)
            · rw [← hlast]
              exact hworker
          split at h
          · cases h
          next hvisit =>
            cases h
            exact (visitWorker_eq_takePage hconsumed hend hvisit).symm
          next hvisit =>
            rw [visitWorker_eq_takePage hconsumed hend hvisit]
            exact ih hrest hstartRest h

/-! ## Positions -/

/-- A cursor that a page has returned: a block is below the bound of its worker. -/
def Resumable (cursor : ReadyReplicaCursor) : Prop :=
  ∀ blockId, cursor.blockId = some blockId →
    ∃ workerEnd, cursor.workerEndBlockId = some workerEnd ∧ blockId < workerEnd

theorem position_lt_iff {left right : ReadyReplicaCursor} : left.position < right.position ↔
    left.workerId < right.workerId ∨ left.workerId = right.workerId ∧
      left.blockId.elim ⊤ WithTop.some < right.blockId.elim ⊤ WithTop.some := by
  unfold ReadyReplicaCursor.position
  rw [Prod.Lex.toLex_lt_toLex]

theorem mem_blockItems (hmem : item ∈ blockItems key workerRunId isEndWorker workerEnd range) :
    item = emptyItem key isEndWorker ∨
      ∃ blockId ∈ range, item = blockItem key workerRunId isEndWorker workerEnd blockId := by
  unfold blockItems at hmem
  split at hmem
  · exact .inl (mem_singleton.1 hmem)
  · obtain ⟨blockId, hblock, heq⟩ := mem_map.1 hmem
    exact .inr ⟨blockId, hblock, heq.symm⟩

section

variable (hmem : item ∈ manager.workerItems cursor scanEndWorkerId key report)
include hmem

theorem mem_workerItems : (∀ c ∈ cursor, c.workerId = key.workerId → c.blockId ≠ none) ∧
    (item = emptyItem key (key.workerId = scanEndWorkerId) ∨
      ∃ active workerEnd blockId, manager.readableBaseline key report = some active ∧
        workerEndOf key active cursor = some workerEnd ∧
        blockId ∈ rangeOf active (afterBlockOf key cursor) workerEnd ∧
        item = blockItem key report.workerRunId (key.workerId = scanEndWorkerId) workerEnd
          blockId) := by
  unfold workerItems at hmem
  dsimp only at hmem
  split at hmem
  · cases hmem
  next hconsumed =>
    constructor
    · intro c hc hworker hnone
      rw [Option.mem_def] at hc
      rw [hc] at hconsumed
      simp [hworker, hnone] at hconsumed
    · split at hmem
      · exact .inl (mem_singleton.1 hmem)
      next active hactive =>
        split at hmem
        · cases hmem
        next workerEnd hlast =>
          rcases mem_blockItems hmem with hempty | ⟨blockId, hblock, heq⟩
          · exact .inl hempty
          · exact .inr ⟨active, workerEnd, blockId, hactive, hlast, hblock, heq⟩

theorem workerId_of_mem : item.mark.workerId = key.workerId := by
  rcases (mem_workerItems hmem).2 with rfl | ⟨active, workerEnd, blockId, _, _, _, rfl⟩
  · rfl
  · unfold blockItem
    dsimp only
    split <;> rfl

theorem resumable_of_mem : Resumable item.mark := by
  rcases (mem_workerItems hmem).2 with rfl | ⟨active, workerEnd, blockId, _, _, hrange, rfl⟩
  · intro found hfound
    cases hfound
  · unfold blockItem
    dsimp only
    split
    · intro found hfound
      cases hfound
    next hne =>
      intro found hfound
      cases hfound
      exact ⟨workerEnd, rfl, lt_of_le_of_ne (mem_rangeOf.1 hrange).2.2 hne⟩

end

theorem lt_position_of_mem {c : ReadyReplicaCursor} (hstart : c.workerId ≤ key.workerId)
    (hmem : item ∈ manager.workerItems (some c) scanEndWorkerId key report) :
    c.position < item.mark.position := by
  have hworker := workerId_of_mem hmem
  obtain ⟨hopen, hitem⟩ := mem_workerItems hmem
  rw [position_lt_iff, hworker]
  rcases hstart.lt_or_eq with hlt | heq
  · exact .inl hlt
  · right
    refine ⟨heq, ?_⟩
    have hblock := hopen c rfl heq
    obtain ⟨after, hafter⟩ := Option.ne_none_iff_exists'.1 hblock
    rw [hafter]
    rcases hitem with rfl | ⟨active, workerEnd, blockId, _, _, hrange, rfl⟩
    · exact WithTop.coe_lt_top after
    · have hlt : after < blockId := by
        apply (mem_rangeOf.1 hrange).2.1
        unfold afterBlockOf
        rw [Option.filter_some_pos (by simpa using heq)]
        exact hafter
      unfold blockItem
      dsimp only
      split
      · exact WithTop.coe_lt_top after
      · exact WithTop.coe_lt_coe.2 hlt

/-! ## One page -/

def pageItems (manager : WorkerManager) (groupName : GroupName)
    (cursor : Option ReadyReplicaCursor) (scanEndWorkerId : WorkerId) : List ReplicaItem :=
  manager.scanItems groupName cursor scanEndWorkerId
    (manager.reports.entriesFrom ⟨groupName, (cursor.map ReadyReplicaCursor.workerId).getD 0⟩)

theorem mem_pageItems (hmem : item ∈ manager.pageItems groupName cursor scanEndWorkerId) :
    ∃ key report, manager.reports.get key = some report ∧ key.groupName = groupName ∧
      key.workerId ≤ scanEndWorkerId ∧ (∀ c ∈ cursor, c.workerId ≤ key.workerId) ∧
      item ∈ manager.workerItems cursor scanEndWorkerId key report := by
  unfold pageItems scanItems at hmem
  obtain ⟨⟨key, report⟩, hentry, hitem⟩ := mem_flatMap.1 hmem
  obtain ⟨hfrom, hscan⟩ := mem_filter.1 hentry
  obtain ⟨hstored, hstart⟩ := mem_filter.1 hfrom
  unfold inScan at hscan
  simp only [Bool.and_eq_true, decide_eq_true_eq] at hscan hstart
  refine ⟨key, report, (manager.reports.mem_entries_iff).1 hstored, hscan.1, hscan.2, ?_, hitem⟩
  intro c hc
  rw [Option.mem_def] at hc
  rw [hc] at hstart
  rcases hstart.lt_or_eq with hlt | heq
  · rcases key_lt_iff.1 hlt with hname | ⟨_, hworker⟩
    · rw [hscan.1] at hname
      exact absurd hname (lt_irrefl _)
    · exact hworker.le
  · rw [← heq]
    exact le_refl c.workerId

theorem visitReadyReplicas_eq_takePage
    (h : manager.visitReadyReplicas groupName cursor scanEndWorkerId limit = .ok outcome) :
    limit ≠ 0 ∧ outcome = takePage limit
      (manager.pageItems groupName cursor scanEndWorkerId) ⟨[], 0⟩ := by
  unfold visitReadyReplicas at h
  split at h
  · cases h
  next hlimit =>
    refine ⟨hlimit, ?_⟩
    split at h
    next hpast =>
      cases h
      have hnone : manager.pageItems groupName cursor scanEndWorkerId = [] := by
        rw [eq_nil_iff_forall_not_mem]
        intro item hmem
        obtain ⟨key, report, _, _, hend, hstart, hitem⟩ := mem_pageItems hmem
        obtain ⟨c, hc, hc'⟩ := (Option.any_eq_true _ _).1 hpast
        rw [decide_eq_true_eq] at hc'
        have hle := hstart c hc
        rcases hc' with hafter | ⟨hlast, hconsumed⟩
        · exact absurd (hle.trans hend) (not_le.2 hafter)
        · have hworker : c.workerId = key.workerId := le_antisymm hle (hlast ▸ hend)
          exact (mem_workerItems hitem).1 c hc hworker hconsumed
      rw [hnone]
      rfl
    · split at h
      · cases h
      · have hascending : (manager.reports.entriesFrom ⟨groupName,
            (cursor.map ReadyReplicaCursor.workerId).getD 0⟩).Pairwise
            (fun left right => left.1 < right.1) := manager.reports.ascending.filter _
        have hgroup : WorkerRegistrationKey.groupName ⟨groupName,
            (cursor.map ReadyReplicaCursor.workerId).getD 0⟩ = groupName := rfl
        apply visitWorkers_eq_takePage hgroup hascending _ h
        intro entry hmem
        exact of_decide_eq_true (mem_filter.1 hmem).2

theorem page_bounded
    (h : manager.visitReadyReplicas groupName cursor scanEndWorkerId limit = .ok outcome) :
    outcome.visited ≤ limit ∧ ∀ next, outcome.next = some next → Resumable next ∧
      ∀ c ∈ cursor, c.position < next.position := by
  obtain ⟨hlimit, rfl⟩ := visitReadyReplicas_eq_takePage h
  constructor
  · exact visited_takePage _ _ (Nat.pos_of_ne_zero hlimit)
  · intro next hnext
    obtain ⟨item, hmem, rfl⟩ := mem_of_next _ _ hnext
    obtain ⟨key, report, _, _, _, hstart, hitem⟩ := mem_pageItems hmem
    refine ⟨resumable_of_mem hitem, ?_⟩
    intro c hc
    have hle := hstart c hc
    rw [Option.mem_def] at hc
    subst hc
    exact lt_position_of_mem hle hitem

/-! ## Pages do not fail -/

theorem mem_readableBaseline (h : manager.readableBaseline key report = some active) :
    report.active = some active ∧ manager.hasRegisteredRun key report.workerRunId = true ∧
      active.readyBlocks.toList ≠ [] := by
  unfold readableBaseline at h
  obtain ⟨hactive, hread⟩ := Option.filter_eq_some_iff.1 h
  simp only [Bool.and_eq_true, Bool.not_eq_true', isEmpty_eq_false_iff] at hread
  exact ⟨hactive, hread.1, hread.2⟩

section

variable (hcursor : ∀ c ∈ cursor, Resumable c)
include hcursor

theorem not_inverted (hlast : workerEndOf key active cursor = some workerEnd) :
    ¬ ((afterBlockOf key cursor).any (workerEnd < ·)) = true := by
  intro hinverted
  obtain ⟨after, hafter, hlt⟩ := (Option.any_eq_true _ _).1 hinverted
  rw [decide_eq_true_eq] at hlt
  unfold afterBlockOf at hafter
  obtain ⟨c, hc, hblock⟩ := Option.bind_eq_some_iff.1 hafter
  obtain ⟨found, hfound, hbelow⟩ := hcursor c (Option.filter_eq_some_iff.1 hc).1 after hblock
  unfold workerEndOf at hlast
  rw [hc] at hlast
  simp only [Option.bind_some, hfound, Option.some_or, Option.some.injEq] at hlast
  rw [← hlast] at hlt
  exact absurd hlt hbelow.asymm

theorem visitWorker_ok (hsound : report.Sound) (progress : PageProgress ReplicaKey) :
    ∃ visit, visitWorker manager cursor scanEndWorkerId limit key report progress = .ok visit := by
  unfold visitWorker
  dsimp only
  split
  · exact ⟨_, rfl⟩
  next active hreadable =>
    obtain ⟨hactive, _, hne⟩ := mem_readableBaseline hreadable
    have hready := (hsound.active active hactive).ready
    unfold visitBaseline
    cases hlast : workerEndOf key active cursor with
    | none =>
      unfold workerEndOf at hlast
      rw [Option.or_eq_none_iff, getLast?_eq_none_iff] at hlast
      exact absurd hlast.2 hne
    | some workerEnd =>
      simp only [bind, Except.bind, readyBlockRange, if_neg (not_inverted hcursor hlast)]
      have hrange : ∀ blockId ∈ rangeOf active (afterBlockOf key cursor) workerEnd,
          isReady active.blocks blockId = true := by
        intro blockId hmem
        exact (hready blockId).1 (mem_rangeOf.1 hmem).1
      obtain ⟨inner, hinner⟩ := visitBlocks_ok hrange progress
      rw [hinner]
      dsimp only
      unfold afterBlocks
      split
      · exact ⟨_, rfl⟩
      · dsimp only
        split_ifs <;> exact ⟨_, rfl⟩

theorem visitWorkers_ok : ∀ {entries : List (WorkerRegistrationKey × WorkerBlockReportRuntime)}
      (progress : PageProgress ReplicaKey), (∀ entry ∈ entries, entry.2.Sound) →
      ∃ outcome, manager.visitWorkers groupName cursor scanEndWorkerId limit entries progress =
        .ok outcome := by
  intro entries
  induction entries with
  | nil =>
    intro progress _
    exact ⟨_, rfl⟩
  | cons entry rest ih =>
    intro progress hsound
    obtain ⟨key, report⟩ := entry
    have hrest := fun entry hmem => hsound entry (mem_cons_of_mem _ hmem)
    unfold visitWorkers
    split
    · exact ⟨_, rfl⟩
    · split
      · exact ⟨_, rfl⟩
      · split
        · exact ih progress hrest
        · have hvisit : ∃ visit, visitWorker manager cursor scanEndWorkerId limit key report
              progress = .ok visit := visitWorker_ok hcursor (hsound _ mem_cons_self) progress
          obtain ⟨visit, hvisit⟩ := hvisit
          rw [hvisit]
          cases visit with
          | finished outcome => exact ⟨outcome, rfl⟩
          | continued after => exact ih after hrest

end

theorem visitReadyReplicas_ok (h : manager.Indexed) (hlimit : limit ≠ 0)
    (hcursor : ∀ c ∈ cursor, Resumable c) : ∃ outcome,
    manager.visitReadyReplicas groupName cursor scanEndWorkerId limit = .ok outcome := by
  unfold visitReadyReplicas
  rw [if_neg hlimit]
  split
  · exact ⟨_, rfl⟩
  · rw [if_neg]
    · apply visitWorkers_ok hcursor
      intro entry hmem
      exact h.sound entry.1 entry.2 ((manager.reports.mem_entries_iff).1 (mem_filter.1 hmem).1)
    · intro hmissing
      obtain ⟨c, hc, hc'⟩ := (Option.any_eq_true _ _).1 hmissing
      rw [decide_eq_true_eq] at hc'
      obtain ⟨blockId, hblock⟩ := Option.isSome_iff_exists.1 hc'.1
      obtain ⟨workerEnd, hlast, _⟩ := hcursor c hc blockId hblock
      rw [hc'.2] at hlast
      cases hlast

/-! ## The stream in one state -/

theorem lastReady_mem (h : active.readyBlocks.toList.getLast? = some workerEnd) :
    workerEnd ∈ active.readyBlocks := by
  rw [← mem_toList]
  exact mem_of_getLast? h

theorem not_after_worker (hmem : item ∈ manager.workerItems cursor scanEndWorkerId key report)
    (workerEndBlockId : Option BlockId) :
    ¬ ReadyReplicaCursor.position ⟨key.workerId, none, workerEndBlockId⟩ < item.mark.position := by
  rw [position_lt_iff, workerId_of_mem hmem]
  simp

theorem workerItems_resume (hmem : item ∈ manager.workerItems none scanEndWorkerId key report) :
    manager.workerItems (some item.mark) scanEndWorkerId key report =
      (manager.workerItems none scanEndWorkerId key report).filter
        fun other => item.mark.position < other.mark.position := by
  have hended : item.mark = ⟨key.workerId, none, none⟩ →
      manager.workerItems (some item.mark) scanEndWorkerId key report =
        (manager.workerItems none scanEndWorkerId key report).filter
          fun other => item.mark.position < other.mark.position := by
    intro hmark
    rw [hmark]
    have hleft : manager.workerItems (some ⟨key.workerId, none, none⟩) scanEndWorkerId key
        report = [] := by
      unfold workerItems
      exact if_pos (by simp)
    rw [hleft, eq_comm, filter_eq_nil_iff]
    intro other hother
    rw [decide_eq_true_eq]
    exact not_after_worker hother none
  rcases (mem_workerItems hmem).2 with rfl | ⟨active, workerEnd, blockId, hreadable, hlast, hrange,
    rfl⟩
  · exact hended rfl
  · by_cases hsame : blockId = workerEnd
    · apply hended
      unfold blockItem
      exact if_pos hsame
    · have hmark : (blockItem key report.workerRunId (key.workerId = scanEndWorkerId) workerEnd
          blockId).mark = ⟨key.workerId, some blockId, some workerEnd⟩ := if_neg hsame
      rw [hmark]
      have hbelow : blockId < workerEnd := lt_of_le_of_ne (mem_rangeOf.1 hrange).2.2 hsame
      have hnone : manager.workerItems none scanEndWorkerId key report =
          (rangeOf active none workerEnd).map (blockItem key report.workerRunId
            (key.workerId = scanEndWorkerId) workerEnd) := by
        unfold workerItems
        simp only [Option.any_none, Bool.false_eq_true, if_false, hreadable, hlast]
        unfold blockItems
        exact if_neg (ne_nil_of_mem hrange)
      have hsome : manager.workerItems (some ⟨key.workerId, some blockId, some workerEnd⟩)
          scanEndWorkerId key report =
          (rangeOf active (some blockId) workerEnd).map (blockItem key report.workerRunId
            (key.workerId = scanEndWorkerId) workerEnd) := by
        unfold workerItems workerEndOf afterBlockOf
        simp only [Option.any_some, reduceCtorEq, and_false, decide_false, Bool.false_eq_true,
          if_false, hreadable, Option.filter_some, decide_true, if_true, Option.bind_some,
          Option.some_or]
        unfold blockItems
        apply if_neg
        apply ne_nil_of_mem
        apply mem_rangeOf.2
        refine ⟨lastReady_mem hlast, ?_, le_refl workerEnd⟩
        rintro _ ⟨⟩
        exact hbelow
      rw [hnone, hsome, filter_map]
      congr 1
      unfold rangeOf
      rw [filter_filter]
      apply filter_congr
      intro other _
      simp only [Option.all_some, Option.all_none, Bool.true_and, Function.comp_apply]
      by_cases hother : other ≤ workerEnd
      · simp only [hother, decide_true, Bool.and_true]
        congr 1
        rw [eq_iff_iff, position_lt_iff]
        unfold blockItem
        dsimp only
        split
        next heq => simp [heq, hbelow]
        · simp
      · simp [hother]

theorem pageItems_eq_flatMap : manager.pageItems groupName cursor scanEndWorkerId =
    manager.reports.entries.flatMap fun entry => if inScan groupName scanEndWorkerId entry.1 ∧
        (cursor.map ReadyReplicaCursor.workerId).getD 0 ≤ entry.1.workerId then
        manager.workerItems cursor scanEndWorkerId entry.1 entry.2 else [] := by
  unfold pageItems scanItems OrderedTable.entriesFrom
  rw [filter_filter, flatMap_filter]
  congr 1
  funext entry
  have hstart : inScan groupName scanEndWorkerId entry.1 = true →
      ((⟨groupName, (cursor.map ReadyReplicaCursor.workerId).getD 0⟩ : WorkerRegistrationKey) ≤
        entry.1 ↔ (cursor.map ReadyReplicaCursor.workerId).getD 0 ≤ entry.1.workerId) := by
    intro hin
    unfold inScan at hin
    simp only [Bool.and_eq_true, decide_eq_true_eq] at hin
    rw [← not_lt, ← not_lt, key_lt_iff, not_iff_not]
    simp [hin.1]
  by_cases hin : inScan groupName scanEndWorkerId entry.1 = true
  · simp only [hin, Bool.true_and, decide_eq_true_eq, true_and, hstart hin]
  · simp [hin]

theorem pageItems_resume (hmem : item ∈ manager.pageItems groupName none scanEndWorkerId) :
    manager.pageItems groupName (some item.mark) scanEndWorkerId =
      (manager.pageItems groupName none scanEndWorkerId).filter
        fun other => item.mark.position < other.mark.position := by
  obtain ⟨key, report, hreport, hgroup, hend, _, hitem⟩ := mem_pageItems hmem
  have hworker := workerId_of_mem hitem
  rw [pageItems_eq_flatMap, pageItems_eq_flatMap, filter_flatMap]
  apply flatMap_congr
  rintro ⟨other, otherReport⟩ hentry
  dsimp only [Option.map_some, Option.map_none, Option.getD_some, Option.getD_none]
  simp only [zero_le, and_true]
  by_cases hin : inScan groupName scanEndWorkerId other = true
  · simp only [hin, true_and, if_true]
    rcases lt_trichotomy item.mark.workerId other.workerId with hlt | heq | hgt
    · rw [if_pos hlt.le, filter_eq_self.2]
      · unfold workerItems workerEndOf afterBlockOf
        simp [Option.filter_some, hlt.ne]
      · intro found hfound
        rw [decide_eq_true_eq, position_lt_iff, workerId_of_mem hfound]
        exact .inl hlt
    · have hkey : other = key := by
        unfold inScan at hin
        simp only [Bool.and_eq_true, decide_eq_true_eq] at hin
        obtain ⟨name, worker⟩ := other
        obtain ⟨name', worker'⟩ := key
        dsimp only at hworker hgroup heq hin
        rw [hin.1, ← heq, hworker, hgroup]
      subst hkey
      rw [(manager.reports.mem_entries_iff).1 hentry] at hreport
      cases hreport
      rw [if_pos heq.le]
      exact workerItems_resume hitem
    · rw [if_neg (not_le.2 hgt), eq_comm, filter_eq_nil_iff]
      intro found hfound
      rw [decide_eq_true_eq, position_lt_iff, workerId_of_mem hfound, not_or, not_and]
      exact ⟨hgt.asymm, fun heq => absurd heq hgt.ne'⟩
  · simp [hin]

/-- The order of the stream: both the positions and the replicas increase. -/
def Before (left right : ReplicaItem) : Prop :=
  left.mark.position < right.mark.position ∧
    ∀ replica ∈ left.value, ∀ replica' ∈ right.value,
      toLex (replica.workerId, replica.blockId) < toLex (replica'.workerId, replica'.blockId)

theorem value_workerId {replica : ReplicaKey}
    (hmem : item ∈ manager.workerItems cursor scanEndWorkerId key report)
    (hvalue : item.value = some replica) : replica.workerId = key.workerId := by
  rcases (mem_workerItems hmem).2 with rfl | ⟨_, _, _, _, _, _, rfl⟩
  · cases hvalue
  · cases hvalue
    rfl

theorem blockItems_before (hascending : range.Pairwise (· < ·))
    (hbound : ∀ blockId ∈ range, blockId ≤ workerEnd) :
    (blockItems key workerRunId isEndWorker workerEnd range).Pairwise Before := by
  unfold blockItems
  split
  · exact pairwise_singleton _ _
  · rw [pairwise_map]
    apply hascending.imp_of_mem
    intro left right _ hright hlt
    constructor
    · have hleft : left ≠ workerEnd := (lt_of_lt_of_le hlt (hbound right hright)).ne
      rw [position_lt_iff]
      unfold blockItem
      dsimp only
      rw [if_neg hleft]
      split
      · simp
      · simp [hlt]
    · rintro _ ⟨⟩ _ ⟨⟩
      rw [Prod.Lex.toLex_lt_toLex]
      exact .inr ⟨rfl, hlt⟩

theorem workerItems_before : (manager.workerItems cursor scanEndWorkerId key report).Pairwise
    Before := by
  unfold workerItems
  dsimp only
  split
  · exact List.Pairwise.nil
  · split
    · exact pairwise_singleton _ _
    · split
      · exact List.Pairwise.nil
      · exact blockItems_before (rangeOf_ascending _ _ _)
          fun blockId hmem => (mem_rangeOf.1 hmem).2.2

theorem pageItems_before :
    (manager.pageItems groupName cursor scanEndWorkerId).Pairwise Before := by
  unfold pageItems scanItems
  rw [pairwise_flatMap]
  constructor
  · intro entry _
    exact workerItems_before
  · have hascending := ((manager.reports.ascending.filter (fun entry =>
      (⟨groupName, (cursor.map ReadyReplicaCursor.workerId).getD 0⟩ : WorkerRegistrationKey) ≤
        entry.1)).filter fun entry => inScan groupName scanEndWorkerId entry.1)
    apply hascending.imp_of_mem
    intro left right hleft hright hlt item hitem item' hitem'
    have hinLeft := (mem_filter.1 hleft).2
    have hinRight := (mem_filter.1 hright).2
    unfold inScan at hinLeft hinRight
    simp only [Bool.and_eq_true, decide_eq_true_eq] at hinLeft hinRight
    have hworker : left.1.workerId < right.1.workerId := by
      rcases key_lt_iff.1 hlt with hname | ⟨_, hworker⟩
      · rw [hinLeft.1, hinRight.1] at hname
        exact absurd hname (lt_irrefl _)
      · exact hworker
    constructor
    · rw [position_lt_iff, workerId_of_mem hitem, workerId_of_mem hitem']
      exact .inl hworker
    · intro replica hreplica replica' hreplica'
      rw [Prod.Lex.toLex_lt_toLex, value_workerId hitem hreplica, value_workerId hitem' hreplica']
      exact .inl hworker

theorem pageItems_finalLast :
    PageItem.FinalLast (manager.pageItems groupName none scanEndWorkerId) := by
  intro front item back hsplit hfinal
  rw [eq_nil_iff_forall_not_mem]
  intro other hother
  have hpair : (manager.pageItems groupName none scanEndWorkerId).Pairwise Before :=
    pageItems_before
  rw [hsplit] at hpair
  have hafter := (pairwise_cons.1 (pairwise_append.1 hpair).2.1).1 other hother
  have hmem : item ∈ manager.pageItems groupName none scanEndWorkerId := by
    rw [hsplit]
    simp
  have hmem' : other ∈ manager.pageItems groupName none scanEndWorkerId := by
    rw [hsplit]
    simp [hother]
  obtain ⟨key, report, _, _, _, _, hitem⟩ := mem_pageItems hmem
  obtain ⟨key', report', _, _, hend', _, hitem'⟩ := mem_pageItems hmem'
  have hmark : item.mark.workerId = scanEndWorkerId ∧ item.mark.blockId = none := by
    rcases (mem_workerItems hitem).2 with rfl | ⟨_, workerEnd, blockId, _, _, _, rfl⟩
    · exact ⟨of_decide_eq_true hfinal, rfl⟩
    · unfold blockItem at hfinal ⊢
      simp only [Bool.and_eq_true, decide_eq_true_eq] at hfinal
      rw [if_pos hfinal.2]
      exact ⟨hfinal.1, rfl⟩
  have hlt := hafter.1
  rw [position_lt_iff, hmark.1, hmark.2, workerId_of_mem hitem'] at hlt
  rcases hlt with hworker | ⟨_, htop⟩
  · exact absurd hend' (not_le.2 hworker)
  · simp at htop

/-! ## Whole scans -/

/-- The replicas of the pages from a cursor on, in one state; nothing when the number of pages
does not suffice. -/
def scanPages (manager : WorkerManager) (groupName : GroupName) (scanEndWorkerId : WorkerId)
    (limit : ℕ) : ℕ → Option ReadyReplicaCursor →
      Except (Exit MetadataError) (Option (List ReplicaKey))
  | 0, _ => .ok none
  | pages + 1, cursor =>
    match manager.listReadyReplicaPage groupName cursor scanEndWorkerId limit with
    | .error exit => .error exit
    | .ok page =>
      match page.nextCursor with
      | none => .ok (some page.replicas)
      | some next =>
        (manager.scanPages groupName scanEndWorkerId limit pages (some next)).map
          fun rest => rest.map (page.replicas ++ ·)

/-- The cursors of the pages from a cursor on, when each page sees another state. -/
def scanCursors (groupName : GroupName) (scanEndWorkerId : WorkerId) (limit : ℕ) :
    List WorkerManager → Option ReadyReplicaCursor → List ReadyReplicaCursor
  | [], _ => []
  | manager :: managers, cursor =>
    match manager.listReadyReplicaPage groupName cursor scanEndWorkerId limit with
    | .error _ => []
    | .ok page =>
      match page.nextCursor with
      | none => []
      | some next => next :: scanCursors groupName scanEndWorkerId limit managers (some next)

theorem listReadyReplicaPage_ok {page : ReadyReplicaPage}
    (h : manager.listReadyReplicaPage groupName cursor scanEndWorkerId limit = .ok page) :
    ∃ outcome, manager.visitReadyReplicas groupName cursor scanEndWorkerId limit = .ok outcome ∧
      page = ⟨outcome.values, outcome.next⟩ := by
  unfold listReadyReplicaPage at h
  cases hvisit : manager.visitReadyReplicas groupName cursor scanEndWorkerId limit with
  | error =>
    rw [hvisit] at h
    cases h
  | ok outcome =>
    rw [hvisit] at h
    cases h
    exact ⟨outcome, rfl, rfl⟩

theorem scanPages_eq (h : manager.Indexed) (hlimit : limit ≠ 0) :
    ∀ (pages : ℕ) (cursor : Option ReadyReplicaCursor) (consumed left : List ReplicaItem),
      manager.pageItems groupName none scanEndWorkerId = consumed ++ left →
      manager.pageItems groupName cursor scanEndWorkerId = left →
      (∀ c ∈ cursor, Resumable c) → left.length < pages →
      manager.scanPages groupName scanEndWorkerId limit pages cursor =
        .ok (some (PageItem.values left)) := by
  intro pages
  induction pages with
  | zero =>
    intro cursor consumed left _ _ _ hfuel
    exact absurd hfuel (Nat.not_lt_zero _)
  | succ pages ih =>
    intro cursor consumed left hall hleft hcursor hfuel
    have hok : ∃ outcome, manager.visitReadyReplicas groupName cursor scanEndWorkerId limit =
        .ok outcome := visitReadyReplicas_ok h hlimit hcursor
    obtain ⟨outcome, houtcome⟩ := hok
    have hbounded := (page_bounded houtcome).2
    have hpage := (visitReadyReplicas_eq_takePage houtcome).2
    rw [hleft] at hpage
    unfold scanPages listReadyReplicaPage
    rw [houtcome]
    dsimp only [Except.map]
    cases hnext : outcome.next with
    | none =>
      have hfinal : PageItem.FinalLast left := by
        intro front item back hsplit
        apply pageItems_finalLast (consumed ++ front) item back
        rw [hall, hsplit, append_assoc]
      have hvalues := values_of_next_none left ⟨[], 0⟩ hfinal (hpage ▸ hnext)
      dsimp only
      rw [hpage, hvalues, nil_append]
    | some next =>
      obtain ⟨front, item, back, hsplit, hmark, _, hvalues⟩ :=
        values_of_next_some left ⟨[], 0⟩ (hpage ▸ hnext)
      have hitem : item ∈ manager.pageItems groupName none scanEndWorkerId := by
        rw [hall, hsplit]
        simp
      have hrest : manager.pageItems groupName (some next) scanEndWorkerId = back := by
        rw [← hmark, pageItems_resume hitem, hall, hsplit, ← append_assoc]
        apply filter_after (f := fun other : ReplicaItem => other.mark.position)
        rw [append_assoc, ← hsplit, ← hall]
        exact pageItems_before.imp And.left
      have hstep := ih (some next) (consumed ++ front ++ [item]) back
        (by rw [hall, hsplit]; simp) hrest
        (fun c hc => by cases hc; exact (hbounded next hnext).1)
        (by rw [hsplit] at hfuel; simp at hfuel; omega)
      dsimp only
      rw [hstep]
      have hvalues : outcome.values = values (front ++ [item]) := by
        rw [hpage, hvalues, nil_append]
      simp only [Option.map_some, hvalues]
      rw [← values_append, hsplit, append_assoc]
      rfl

theorem mem_values_pageItems {replica : ReplicaKey} (h : manager.Indexed) :
    replica ∈ PageItem.values (manager.pageItems groupName none scanEndWorkerId) ↔
      replica.groupName = groupName ∧ replica.workerId ≤ scanEndWorkerId ∧
      ∃ report, manager.reports.get ⟨groupName, replica.workerId⟩ = some report ∧
        report.workerRunId = replica.workerRunId ∧
        manager.hasRegisteredRun ⟨groupName, replica.workerId⟩ replica.workerRunId = true ∧
        report.Shows replica.blockId := by
  unfold values
  rw [mem_filterMap]
  constructor
  · rintro ⟨item, hmem, hvalue⟩
    obtain ⟨key, report, hreport, rfl, hend, _, hitem⟩ := mem_pageItems hmem
    rcases (mem_workerItems hitem).2 with rfl | ⟨active, workerEnd, blockId, hreadable, _, hrange,
      rfl⟩
    · cases hvalue
    · cases hvalue
      obtain ⟨hactive, hrun, _⟩ := mem_readableBaseline hreadable
      have hready := ((h.sound key report hreport).active active hactive).ready blockId
      exact ⟨rfl, hend, report, hreport, rfl, hrun, active, hactive,
        hready.1 (mem_rangeOf.1 hrange).1⟩
  · rintro ⟨rfl, hend, report, hreport, hrunId, hrun, active, hactive, hready⟩
    have hmem : replica.blockId ∈ active.readyBlocks :=
      (((h.sound _ report hreport).active active hactive).ready _).2 hready
    have hlisted := (mem_toList).2 hmem
    have hne := ne_nil_of_mem hlisted
    obtain ⟨workerEnd, hlast⟩ := Option.isSome_iff_exists.1 (getLast?_isSome.2 hne)
    have hle : replica.blockId ≤ workerEnd := le_getLast hmem hlast
    have hreadable : manager.readableBaseline ⟨replica.groupName, replica.workerId⟩ report =
        some active := by
      unfold readableBaseline
      rw [Option.filter_eq_some_iff]
      refine ⟨hactive, ?_⟩
      rw [hrunId, hrun]
      simpa using hne
    have hrange : replica.blockId ∈ rangeOf active
        (afterBlockOf ⟨replica.groupName, replica.workerId⟩ none) workerEnd :=
      mem_rangeOf.2 ⟨hmem, nofun, hle⟩
    refine ⟨blockItem ⟨replica.groupName, replica.workerId⟩ report.workerRunId
      (replica.workerId = scanEndWorkerId) workerEnd replica.blockId, ?_, ?_⟩
    · rw [pageItems_eq_flatMap, mem_flatMap]
      refine ⟨(_, report), (manager.reports.mem_entries_iff).2 hreport, ?_⟩
      rw [if_pos (by simp [inScan, hend])]
      unfold workerItems
      simp only [Option.any_none, Bool.false_eq_true, if_false, hreadable]
      have hbound : workerEndOf ⟨replica.groupName, replica.workerId⟩ active none =
          some workerEnd := hlast
      rw [hbound]
      unfold blockItems
      dsimp only
      rw [if_neg (ne_nil_of_mem hrange)]
      exact mem_map_of_mem hrange
    · unfold blockItem
      rw [hrunId]

theorem scanCursors_ascending : ∀ (managers : List WorkerManager)
    (cursor : Option ReadyReplicaCursor),
    (∀ c ∈ cursor, ∀ next ∈ scanCursors groupName scanEndWorkerId limit managers cursor,
      c.position < next.position) ∧
    (scanCursors groupName scanEndWorkerId limit managers cursor).Pairwise
      fun left right => left.position < right.position := by
  intro managers
  induction managers with
  | nil =>
    intro cursor
    exact ⟨fun c hc next hnext => absurd hnext not_mem_nil, List.Pairwise.nil⟩
  | cons manager managers ih =>
    intro cursor
    unfold scanCursors
    split
    · exact ⟨fun c hc next hnext => absurd hnext not_mem_nil, List.Pairwise.nil⟩
    next page hpage =>
      obtain ⟨outcome, houtcome, rfl⟩ := listReadyReplicaPage_ok hpage
      dsimp only
      split
      · exact ⟨fun c hc next hnext => absurd hnext not_mem_nil, List.Pairwise.nil⟩
      next next hnext =>
        obtain ⟨habove, hrest⟩ := ih (some next)
        have hstep := ((page_bounded houtcome).2 next hnext).2
        constructor
        · intro c hc later hlater
          rcases mem_cons.1 hlater with rfl | hlater
          · exact hstep c hc
          · exact (hstep c hc).trans (habove next rfl later hlater)
        · exact pairwise_cons.2 ⟨fun later hlater => habove next rfl later hlater, hrest⟩

/-- In one state the pages of a scan end, and list every ready replica of a registered run up to
the last worker once, in order.  Over changing states the cursors increase, and no page visits
more than its limit. -/
theorem ready_replica_scan (heartbeatTimeoutMs : ℕ) (calls : List WorkerCall)
    (groupName : GroupName) (scanEndWorkerId : WorkerId) (limit : ℕ) (hlimit : 1 ≤ limit) :
    let manager := (WorkerManager.new heartbeatTimeoutMs).afterCalls calls
    (∃ replicas bound, (∀ pages, bound ≤ pages →
        manager.scanPages groupName scanEndWorkerId limit pages none = .ok (some replicas)) ∧
      replicas.Pairwise (fun left right =>
        toLex (left.workerId, left.blockId) < toLex (right.workerId, right.blockId)) ∧
      ∀ replica, replica ∈ replicas ↔
        replica.groupName = groupName ∧ replica.workerId ≤ scanEndWorkerId ∧
        ∃ report, manager.reports.get ⟨groupName, replica.workerId⟩ = some report ∧
          report.workerRunId = replica.workerRunId ∧
          manager.hasRegisteredRun ⟨groupName, replica.workerId⟩ replica.workerRunId = true ∧
          ∃ active block, report.active = some active ∧
            active.blocks.lookup replica.blockId = some block ∧ block.blockState = .ready) ∧
    (∀ managers : List WorkerManager,
      (scanCursors groupName scanEndWorkerId limit managers none).Pairwise
        fun left right => left.position < right.position) ∧
    (∀ (state : WorkerManager) cursor outcome,
      state.visitReadyReplicas groupName cursor scanEndWorkerId limit = .ok outcome →
      outcome.visited ≤ limit) := by
  intro manager
  have h : manager.Indexed := (indexed_new heartbeatTimeoutMs).afterCalls calls
  refine ⟨⟨values (manager.pageItems groupName none scanEndWorkerId),
    (manager.pageItems groupName none scanEndWorkerId).length + 1, ?_, ?_, ?_⟩, ?_, ?_⟩
  · intro pages hpages
    exact scanPages_eq h (Nat.ne_of_gt hlimit) pages none [] _ rfl rfl nofun hpages
  · unfold values
    rw [pairwise_filterMap]
    exact pageItems_before.imp fun hbefore replica hreplica replica' hreplica' =>
      hbefore.2 replica hreplica replica' hreplica'
  · intro replica
    rw [mem_values_pageItems h]
    simp only [WorkerBlockReportRuntime.Shows, isReady_iff]
    simp only [exists_and_left]
  · intro managers
    exact (scanCursors_ascending managers none).2
  · intro state cursor outcome houtcome
    exact (page_bounded houtcome).1

def reportingGroup : GroupName := ⟨"root", checkGroupName_root⟩

def sampleReports : List WorkerCall :=
  [.registerWorkerRun reportingGroup 1 "w1" 1 5 none,
    .recordHeartbeatWithTierFree reportingGroup 1 5 1 "w1" 1 [] 0 0 0,
    .receiveFullBlockReport reportingGroup 1 5 1 0 true
      [⟨none, ⟨7, 0⟩, 1, .ready, 10⟩, ⟨none, ⟨7, 1⟩, 1, .ready, 10⟩] 0 0]

theorem ready_replica_scan_two_pages :
    let manager := (WorkerManager.new 1000).afterCalls sampleReports
    manager.scanPages reportingGroup 1 1 2 none =
      .ok (some [⟨reportingGroup, 1, 5, ⟨7, 0⟩⟩, ⟨reportingGroup, 1, 5, ⟨7, 1⟩⟩]) ∧
    ∃ replicas bound, ∀ pages, bound ≤ pages →
      manager.scanPages reportingGroup 1 1 pages none = .ok (some replicas) := by
  intro manager
  refine ⟨rfl, ?_⟩
  obtain ⟨⟨replicas, bound, hpages, _⟩, _⟩ :=
    ready_replica_scan 1000 sampleReports reportingGroup 1 1 (le_refl 1)
  exact ⟨replicas, bound, hpages⟩

end WorkerManager

end Beryl
