import Beryl.WorkerReports

/-!
# The index of block locations

A worker is listed for a block exactly when its active baseline holds the block as ready.
Every call keeps this, whether it succeeds or fails half way: each of them changes one
report, and the locations of that report's worker with it.
-/

namespace Beryl

open Transaction OrderedTable HashMap ReverseIndex OrderedSet WorkerManager

/-! ## What a manager observes -/

variable {blockId : BlockId} {blocks : ReportedBlocks}

theorem WorkerManager.isReady_iff : isReady blocks blockId = true ↔
      ∃ block, blocks.lookup blockId = some block ∧ block.blockState = .ready := by
  unfold isReady
  simp only [Option.any_eq_true, decide_eq_true_eq]

def ReportedBlocks.Keyed (blocks : ReportedBlocks) : Prop :=
  ∀ blockId block, blocks.lookup blockId = some block → block.blockId = blockId

structure ActiveBlockReport.Sound (active : ActiveBlockReport) : Prop where
  keyed : ReportedBlocks.Keyed active.blocks
  ready : ∀ blockId, blockId ∈ active.readyBlocks ↔
    WorkerManager.isReady active.blocks blockId = true

structure WorkerBlockReportRuntime.Sound (report : WorkerBlockReportRuntime) : Prop where
  active : ∀ active, report.active = some active → active.Sound
  staging : ∀ staging, report.staging = some staging → ReportedBlocks.Keyed staging.blocks
  exclusive : report.active = none ∨ report.staging = none

def WorkerBlockReportRuntime.Shows (report : WorkerBlockReportRuntime) (blockId : BlockId) :
    Prop :=
  ∃ active, report.active = some active ∧ WorkerManager.isReady active.blocks blockId = true

namespace WorkerManager

/-- The locations are the inverse of the ready blocks of the active baselines. -/
structure Indexed (manager : WorkerManager) : Prop where
  located : ∀ item key, manager.locations.Listed item key ↔ item.groupName = key.groupName ∧
    ∃ report, manager.reports.get key = some report ∧ report.Shows item.blockId
  sound : ∀ key report, manager.reports.get key = some report → report.Sound
  registered : ∀ key report, manager.reports.get key = some report →
    manager.hasRegisteredRun key report.workerRunId = true

/-- A failed call was refused; no assertion of the source has failed. -/
def Refused (exit : Exit MetadataError) : Prop := ∃ error, exit = .refused error

def Keeps {α : Type} (x : WorkerM α) (manager : WorkerManager) : Prop :=
  Ensures x manager (fun _ manager' => manager'.Indexed)
    (fun exit manager' => manager'.Indexed ∧ Refused exit)

variable {manager manager' : WorkerManager} {key : WorkerRegistrationKey}
  {report : WorkerBlockReportRuntime}

theorem Indexed.congr (h : manager.Indexed)
    (hregistrations : manager'.registrations = manager.registrations)
    (hreports : manager'.reports = manager.reports)
    (hlocations : manager'.locations = manager.locations) : manager'.Indexed := by
  constructor
  · rw [hlocations, hreports]
    exact h.located
  · rw [hreports]
    exact h.sound
  · rw [hreports]
    intro key report hreport
    have hrun := h.registered key report hreport
    unfold hasRegisteredRun at hrun ⊢
    rw [hregistrations]
    exact hrun

variable {locations : BlockLocations} {α : Type} {error : MetadataError}

theorem Indexed.put (h : manager.Indexed) (hsound : report.Sound)
    (hrun : manager.hasRegisteredRun key report.workerRunId = true)
    (hlocations : ∀ item owner, locations.Listed item owner ↔ (owner ≠ key ∧
      manager.locations.Listed item owner) ∨ (owner = key ∧ item.groupName = key.groupName ∧
      report.Shows item.blockId)) :
    Indexed { manager with
      reports := manager.reports.put key report
      locations := locations } := by
  constructor
  · intro item owner
    change locations.Listed item owner ↔ _ ∧ ∃ found,
      (manager.reports.put key report).get owner = some found ∧ _
    rw [hlocations, get_put]
    by_cases howner : owner = key
    · subst howner
      simp
    · rw [if_neg howner]
      simp only [howner, ne_eq, not_false_eq_true, true_and, false_and, or_false]
      exact h.located item owner
  · intro owner found hfound
    change (manager.reports.put key report).get owner = some found at hfound
    rw [get_put] at hfound
    split at hfound
    · cases hfound
      exact hsound
    · exact h.sound owner found hfound
  · intro owner found hfound
    change (manager.reports.put key report).get owner = some found at hfound
    rw [get_put] at hfound
    split at hfound
    next heq =>
      cases hfound
      subst heq
      exact hrun
    · exact h.registered owner found hfound

variable {registrations : HashMap WorkerRegistrationKey WorkerRegistrationState}

theorem Indexed.delete (h : manager.Indexed)
    (hregistrations : ∀ owner, owner ≠ key → registrations.lookup owner =
      manager.registrations.lookup owner)
    (hlocations : ∀ item owner, locations.Listed item owner ↔ owner ≠ key ∧
      manager.locations.Listed item owner) :
    Indexed { manager with
      registrations := registrations
      reports := manager.reports.delete key
      locations := locations } := by
  have hget : ∀ {owner found}, (manager.reports.delete key).get owner = some found →
      owner ≠ key ∧ manager.reports.get owner = some found := by
    intro owner found hfound
    rw [get_delete] at hfound
    split at hfound
    · cases hfound
    next hne => exact ⟨hne, hfound⟩
  constructor
  · intro item owner
    change locations.Listed item owner ↔ _ ∧ ∃ found,
      (manager.reports.delete key).get owner = some found ∧ _
    rw [hlocations, get_delete]
    by_cases howner : owner = key
    · simp [howner]
    · rw [if_neg howner]
      simp only [howner, ne_eq, not_false_eq_true, true_and]
      exact h.located item owner
  · intro owner found hfound
    exact h.sound owner found (hget hfound).2
  · intro owner found hfound
    obtain ⟨hne, hold⟩ := hget hfound
    have hrun := h.registered owner found hold
    unfold hasRegisteredRun at hrun ⊢
    change Option.any _ (registrations.lookup owner) = true
    rw [hregistrations owner hne]
    exact hrun

/-! ## Locations of one worker -/

variable {blockIds : List BlockId} {item : BlockLocationKey}

theorem mem_locationKeys : item ∈ locationKeys key blockIds ↔
      item.groupName = key.groupName ∧ item.blockId ∈ blockIds := by
  unfold locationKeys
  rw [List.mem_map]
  constructor
  · rintro ⟨blockId, hmem, rfl⟩
    exact ⟨rfl, hmem⟩
  · rintro ⟨hgroup, hmem⟩
    refine ⟨item.blockId, hmem, ?_⟩
    rw [← hgroup]

theorem Indexed.listed_dropReport (h : manager.Indexed)
    (hreport : manager.reports.get key = some report) (item : BlockLocationKey)
    (owner : WorkerRegistrationKey) : (dropReport manager.locations key report).Listed item owner ↔
      owner ≠ key ∧ manager.locations.Listed item owner := by
  have hself : manager.locations.Listed item key ↔ item.groupName = key.groupName ∧
      report.Shows item.blockId := by
    rw [h.located]
    simp [hreport]
  unfold dropReport
  split
  next hnone =>
    constructor
    · intro hlisted
      refine ⟨?_, hlisted⟩
      rintro rfl
      obtain ⟨-, active, hactive, -⟩ := hself.1 hlisted
      cases hnone.symm.trans hactive
    · exact And.right
  next active hactive =>
    have hready := ((h.sound key report hreport).active active hactive).ready
    unfold removeWorkerReadyLocations
    rw [listed_unlistAll, mem_locationKeys, mem_toList, hready]
    constructor
    · rintro ⟨hother, hlisted⟩
      refine ⟨?_, hlisted⟩
      rintro rfl
      obtain ⟨hgroup, found, hfound, hshown⟩ := hself.1 hlisted
      cases hactive.symm.trans hfound
      exact hother ⟨⟨hgroup, hshown⟩, rfl⟩
    · rintro ⟨hne, hlisted⟩
      exact ⟨fun hboth => hne hboth.2, hlisted⟩

theorem listed_addWorkerReadyLocations {owner : WorkerRegistrationKey} :
    (addWorkerReadyLocations locations key blockIds).Listed item owner ↔
      (owner = key ∧ item.groupName = key.groupName ∧ item.blockId ∈ blockIds) ∨
        locations.Listed item owner := by
  unfold addWorkerReadyLocations
  rw [listed_listAll, mem_locationKeys]
  tauto

/-! ## Calls that leave the index alone -/

structure SameIndex (manager manager' : WorkerManager) : Prop where
  registrations : manager'.registrations = manager.registrations
  reports : manager'.reports = manager.reports
  locations : manager'.locations = manager.locations

theorem SameIndex.indexed (h : SameIndex manager manager') (hindexed : manager.Indexed) :
    manager'.Indexed :=
  hindexed.congr h.registrations h.reports h.locations

theorem keeps_pure {value : α} (h : manager.Indexed) : Keeps (pure value) manager := h

theorem keeps_refuse (h : manager.Indexed) :
    Keeps (fail (.refused error) : WorkerM α) manager := ⟨h, error, rfl⟩

variable {f : Unit → WorkerM α}

theorem keeps_refuseIf_bind {condition : Prop} [Decidable condition]
    (h : manager.Indexed) (hok : ¬condition → Keeps (f ()) manager) :
    Keeps (refuseIf condition error >>= f) manager :=
  failIf_bind (fun _ => ⟨h, error, rfl⟩) hok

theorem keeps_okOr_bind {β : Type} {value : Option β} {f : β → WorkerM α} (h : manager.Indexed)
    (hok : ∀ found, value = some found → Keeps (f found) manager) :
    Keeps (okOr value (.refused error) >>= f) manager :=
  okOr_bind (fun _ => ⟨h, error, rfl⟩) hok

theorem keeps_update_bind {f : WorkerManager → WorkerManager} {g : Unit → WorkerM α}
    (h : Keeps (g ()) (f manager)) : Keeps (update f >>= g) manager := h

theorem keeps_current_bind {f : WorkerManager → WorkerM α} (h : Keeps (f manager) manager) :
    Keeps (current >>= f) manager := h

theorem keeps_notify (h : manager.Indexed) : Keeps notifyPublicationObservationChanged manager :=
  h.congr rfl rfl rfl

theorem keeps_notify_bind (h : ∀ manager', SameIndex manager manager' → Keeps (f ()) manager') :
    Keeps (notifyPublicationObservationChanged >>= f) manager :=
  h _ ⟨rfl, rfl, rfl⟩

theorem keeps_upsertDescriptor_bind {descriptor : WorkerDescriptor}
    (h : ∀ manager', SameIndex manager manager' → Keeps (f ()) manager') :
    Keeps (upsertDescriptor descriptor >>= f) manager :=
  h _ ⟨rfl, rfl, rfl⟩

theorem keeps_expireLiveness_bind {now : ℕ} {f : Finset WorkerRegistrationKey → WorkerM α}
    (h : ∀ expired manager', SameIndex manager manager' → Keeps (f expired) manager') :
    Keeps (expireLiveness now >>= f) manager := by
  apply ensures_bind
  unfold expireLiveness
  apply ensures_read
  apply ensures_write
  split
  · exact h _ _ ⟨rfl, rfl, rfl⟩
  · exact h _ _ ⟨rfl, rfl, rfl⟩

theorem keeps_validateReportSource_bind {workerRunId : WorkerRunId} {expireAt liveAt : ℕ}
    (hindexed : manager.Indexed) (h : ∀ manager', manager'.Indexed → Keeps (f ()) manager') :
    Keeps (validateReportSource key workerRunId expireAt liveAt >>= f) manager := by
  have hsource : Ensures (validateReportSource key workerRunId expireAt liveAt) manager
      (fun _ manager' => manager'.Indexed)
      (fun exit manager' => manager'.Indexed ∧ Refused exit) := by
    unfold validateReportSource
    apply keeps_expireLiveness_bind
    intro _ manager' hsame
    have hindexed' := hsame.indexed hindexed
    apply keeps_current_bind
    apply keeps_okOr_bind hindexed'
    intro registration _
    apply keeps_refuseIf_bind hindexed'
    intro _
    exact ensures_failIf (fun _ => ⟨hindexed', _, rfl⟩) fun _ => hindexed'
  exact hsource.bind (fun _ _ hfailed => hfailed) fun _ manager' hmanager => h manager' hmanager

theorem resetWorkerSoftState_keeps (manager : WorkerManager) :
    Keeps resetWorkerSoftState manager := by
  apply keeps_update_bind
  apply keeps_notify
  constructor
  · intro item owner
    simp
  · intro _ _ hkey
    cases hkey
  · intro _ _ hkey
    cases hkey

theorem upsertDescriptor_keeps (h : manager.Indexed) (descriptor : WorkerDescriptor) :
    Keeps (upsertDescriptor descriptor) manager :=
  keeps_notify (h.congr rfl rfl rfl)

theorem loadRegisteredWorkers_keeps (manager : WorkerManager) (workers : List WorkerInfo) :
    Keeps (loadRegisteredWorkers workers) manager := by
  apply keeps_update_bind
  apply keeps_notify
  constructor
  · intro item owner
    simp
  · intro _ _ hkey
    cases hkey
  · intro _ _ hkey
    cases hkey

theorem validateWorkerRegistrationPreflight_keeps (h : manager.Indexed)
    (key : WorkerRegistrationKey) (workerRunId : WorkerRunId) (address : String)
    (workerNetProtocol : ℤ) (expireAt liveAt : ℕ) :
    Keeps (validateWorkerRegistrationPreflight key workerRunId address workerNetProtocol expireAt
      liveAt) manager := by
  unfold validateWorkerRegistrationPreflight
  apply keeps_expireLiveness_bind
  intro _ manager' hsame
  have h' := hsame.indexed h
  apply keeps_current_bind
  split
  · exact keeps_pure h'
  · split
    · split
      · exact keeps_refuse h'
      · exact keeps_pure h'
    · exact ensures_failIf (fun _ => ⟨h', _, rfl⟩) fun _ => h'

theorem markHeartbeatRejectionIfChanged_keeps (h : manager.Indexed)
    (key : WorkerRegistrationKey) (workerRunId : WorkerRunId) (reason : HeartbeatRejectionReason) :
    Keeps (markHeartbeatRejectionIfChanged key workerRunId reason) manager :=
  h.congr rfl rfl rfl

theorem recordHeartbeatWithTierFree_keeps (h : manager.Indexed) (groupName : GroupName)
    (workerId : WorkerId) (workerRunId : WorkerRunId) (heartbeatSeq : ℕ)
    (advertisedEndpoint : String) (workerNetProtocol : ℤ) (tierFree : List TierFree)
    (expireAt now nowMs : ℕ) :
    Keeps (recordHeartbeatWithTierFree groupName workerId workerRunId heartbeatSeq
      advertisedEndpoint workerNetProtocol tierFree expireAt now nowMs) manager := by
  unfold recordHeartbeatWithTierFree
  apply keeps_expireLiveness_bind
  intro _ manager' hsame
  have h' := hsame.indexed h
  apply keeps_current_bind
  apply keeps_okOr_bind h'
  intro descriptor _
  apply keeps_okOr_bind h'
  intro registration _
  apply keeps_refuseIf_bind h'
  intro _
  apply keeps_refuseIf_bind h'
  intro _
  apply keeps_update_bind
  exact h'.congr rfl rfl rfl

theorem expireLiveness_keeps (h : manager.Indexed) (now : ℕ) :
    Keeps (expireLiveness now) manager := by
  unfold expireLiveness
  apply keeps_current_bind
  apply keeps_update_bind
  split
  · exact h.congr rfl rfl rfl
  · exact h.congr rfl rfl rfl

/-! ## Registering and removing workers -/

theorem keeps_removeWorkerReport_bind {f : Option WorkerBlockReportRuntime → WorkerM α}
    (h : manager.Indexed)
    (hregistrations : ∀ owner, owner ≠ key → registrations.lookup owner =
      manager.registrations.lookup owner)
    (hf : ∀ removed manager', manager'.Indexed → Keeps (f removed) manager') :
    Keeps (removeWorkerReport key >>= f) { manager with registrations := registrations } := by
  apply ensures_bind
  unfold removeWorkerReport
  apply ensures_read
  dsimp only
  split
  next hnone =>
    have hsame : manager.reports.delete key = manager.reports := by
      apply ext_get
      intro owner
      rw [get_delete]
      split
      next heq => rw [heq, hnone]
      next => rfl
    have hlocations : ∀ item owner, manager.locations.Listed item owner ↔
        owner ≠ key ∧ manager.locations.Listed item owner := by
      intro item owner
      refine ⟨fun hlisted => ⟨?_, hlisted⟩, And.right⟩
      rintro rfl
      obtain ⟨-, report, hreport, -⟩ := (h.located item owner).1 hlisted
      cases hnone.symm.trans hreport
    have hdeleted := h.delete hregistrations hlocations
    rw [hsame] at hdeleted
    exact hf none _ hdeleted
  next report hreport =>
    apply ensures_write
    exact hf (some report) _ (h.delete hregistrations (h.listed_dropReport hreport))

theorem registerWorkerRun_keeps (h : manager.Indexed) (groupName : GroupName)
    (workerId : WorkerId) (address : String) (workerNetProtocol : ℤ)
    (workerRunId : WorkerRunId) (faultDomain : Option String) :
    Keeps (registerWorkerRun groupName workerId address workerNetProtocol workerRunId
      faultDomain) manager := by
  unfold registerWorkerRun
  apply keeps_current_bind
  split
  · exact keeps_refuse h
  · apply keeps_upsertDescriptor_bind
    intro manager' hsame
    have h' := hsame.indexed h
    apply keeps_current_bind
    apply keeps_update_bind
    have hothers : ∀ owner, owner ≠ WorkerRegistrationKey.mk groupName workerId →
        (manager'.registrations.insert ⟨groupName, workerId⟩ ⟨groupName, workerId, workerRunId,
          address, workerNetProtocol, faultDomain⟩).lookup owner =
          manager'.registrations.lookup owner := by
      intro owner hne
      rw [lookup_insert_eq, if_neg hne]
    split
    next hsameRun =>
      apply keeps_update_bind
      apply keeps_notify
      constructor
      · exact h'.located
      · exact h'.sound
      · intro owner report hreport
        have hrun := h'.registered owner report hreport
        unfold hasRegisteredRun at hrun hsameRun ⊢
        change Option.any _ ((manager'.registrations.insert _ _).lookup owner) = true
        by_cases howner : owner = WorkerRegistrationKey.mk groupName workerId
        · subst howner
          rw [lookup_insert_eq, if_pos rfl]
          simp only [Option.any_eq_true, decide_eq_true_eq] at hrun hsameRun
          obtain ⟨registration, hregistration, hrun⟩ := hrun
          obtain ⟨registration', hregistration', hrun'⟩ := hsameRun
          cases hregistration.symm.trans hregistration'
          simp [← hrun, hrun']
        · rw [hothers owner howner]
          exact hrun
    next =>
      apply keeps_removeWorkerReport_bind h' hothers
      intro _ manager'' h''
      apply keeps_update_bind
      exact keeps_notify (h''.congr rfl rfl rfl)

theorem removeDeadWorker_keeps (h : manager.Indexed) (groupName : GroupName)
    (workerId : WorkerId) : Keeps (removeDeadWorker groupName workerId) manager := by
  unfold removeDeadWorker
  apply keeps_current_bind
  apply keeps_update_bind
  apply keeps_removeWorkerReport_bind h
  · intro owner hne
    rw [lookup_erase_eq, if_neg hne]
  · intro _ manager' h'
    apply keeps_update_bind
    have h'' : Indexed { manager' with
        runtime := manager'.runtime.erase ⟨groupName, workerId⟩ } := h'.congr rfl rfl rfl
    dsimp only
    split
    · exact keeps_notify_bind fun manager'' hsame => keeps_pure (hsame.indexed h'')
    · exact keeps_pure h''

/-! ## Full reports -/

theorem mem_readyBlockIds (hkeyed : ReportedBlocks.Keyed blocks) :
    blockId ∈ readyBlockIds blocks ↔ isReady blocks blockId = true := by
  unfold readyBlockIds
  rw [mem_ofMultiset, Multiset.mem_map, isReady_iff]
  constructor
  · rintro ⟨⟨key, block⟩, hmem, rfl⟩
    obtain ⟨hentry, hstate⟩ := Multiset.mem_filter.1 hmem
    have hlookup : blocks.lookup key = some block := Finmap.mem_lookup_iff.2 hentry
    refine ⟨block, ?_, hstate⟩
    rw [hkeyed key block hlookup]
    exact hlookup
  · rintro ⟨block, hlookup, hstate⟩
    refine ⟨⟨blockId, block⟩, ?_, hkeyed blockId block hlookup⟩
    exact Multiset.mem_filter.2 ⟨Finmap.mem_lookup_iff.1 hlookup, hstate⟩

theorem keyed_empty : ReportedBlocks.Keyed ∅ := by
  intro blockId block hlookup
  rw [Finmap.lookup_empty] at hlookup
  cases hlookup

theorem keyed_insert (h : ReportedBlocks.Keyed blocks)
    (block : BlockReportBlock) : ReportedBlocks.Keyed (blocks.insert block.blockId block) := by
  intro blockId found hfound
  rw [lookup_insert_eq] at hfound
  split at hfound
  next heq =>
    cases hfound
    exact heq.symm
  next => exact h blockId found hfound

theorem keyed_stageBlocks {blocks : List BlockReportBlock} :
    ∀ {staged : ReportedBlocks}, ReportedBlocks.Keyed staged →
      ReportedBlocks.Keyed (stageBlocks staged blocks) := by
  induction blocks with
  | nil =>
    intro staged hkeyed
    exact hkeyed
  | cons block blocks ih =>
    intro staged hkeyed
    exact ih (keyed_insert hkeyed block)

theorem Indexed.not_listed_of_inactive (h : manager.Indexed)
    (hreport : ∀ report, manager.reports.get key = some report → report.active = none)
    (item : BlockLocationKey) : ¬manager.locations.Listed item key := by
  intro hlisted
  obtain ⟨-, report, hfound, active, hactive, -⟩ := (h.located item key).1 hlisted
  cases (hreport report hfound).symm.trans hactive

theorem Indexed.putInactive (h : manager.Indexed) (hsound : report.Sound)
    (hrun : manager.hasRegisteredRun key report.workerRunId = true)
    (hold : ∀ report, manager.reports.get key = some report → report.active = none)
    (hnone : report.active = none) :
    Indexed { manager with reports := manager.reports.put key report } := by
  apply h.put hsound hrun
  intro item owner
  have hself := h.not_listed_of_inactive hold item
  have hshows : ¬report.Shows item.blockId := by
    rintro ⟨active, hactive, -⟩
    cases hnone.symm.trans hactive
  by_cases howner : owner = key
  · subst howner
    simp [hself, hshows]
  · simp [howner]

theorem Indexed.putDropped (h : manager.Indexed) {old : WorkerBlockReportRuntime}
    (hold : manager.reports.get key = some old) (hsound : report.Sound)
    (hrun : manager.hasRegisteredRun key report.workerRunId = true)
    (hnone : report.active = none) :
    Indexed { manager with
      locations := dropReport manager.locations key old
      reports := manager.reports.put key report } := by
  apply h.put hsound hrun
  intro item owner
  rw [h.listed_dropReport hold]
  have hshows : ¬report.Shows item.blockId := by
    rintro ⟨active, hactive, -⟩
    cases hnone.symm.trans hactive
  simp [hshows]

variable {active : ActiveBlockReport}

theorem Indexed.putPublished (h : manager.Indexed)
    (hsound : report.Sound) (hactive : report.active = some active)
    (hrun : manager.hasRegisteredRun key report.workerRunId = true)
    (hold : ∀ report, manager.reports.get key = some report → report.active = none) :
    Indexed { manager with
      locations := addWorkerReadyLocations manager.locations key
        (toList active.readyBlocks)
      reports := manager.reports.put key report } := by
  apply h.put hsound hrun
  intro item owner
  have hself := h.not_listed_of_inactive hold item
  have hready := (hsound.active active hactive).ready item.blockId
  have hshows : report.Shows item.blockId ↔ isReady active.blocks item.blockId = true := by
    constructor
    · rintro ⟨found, hfound, hshown⟩
      cases hactive.symm.trans hfound
      exact hshown
    · intro hshown
      exact ⟨active, hactive, hshown⟩
  rw [listed_addWorkerReadyLocations, mem_toList, hready, hshows]
  by_cases howner : owner = key
  · subst howner
    simp [hself]
  · simp [howner]

structure Stores (manager : WorkerManager) (key : WorkerRegistrationKey)
    (report : WorkerBlockReportRuntime) : Prop where
  indexed : manager.Indexed
  stored : manager.reports.get key = some report

namespace Stores

section

variable (h : manager.Stores key report)
include h

theorem sound : report.Sound :=
  h.indexed.sound key report h.stored

theorem run : manager.hasRegisteredRun key report.workerRunId = true :=
  h.indexed.registered key report h.stored

theorem inactive (hnone : report.active = none) :
    ∀ found, manager.reports.get key = some found → found.active = none := by
  intro found hfound
  cases h.stored.symm.trans hfound
  exact hnone

theorem restage (hnone : report.active = none)
    {staging : Option StagingFullBlockReport}
    (hstaging : ∀ found, staging = some found → ReportedBlocks.Keyed found.blocks) :
    Indexed { manager with
      reports := manager.reports.put key { report with staging := staging } } := by
  have hsound : WorkerBlockReportRuntime.Sound { report with staging := staging } :=
    ⟨h.sound.active, hstaging, .inl hnone⟩
  exact h.indexed.putInactive hsound h.run (h.inactive hnone) hnone

end

end Stores

variable {blocks : ReportedBlocks}

theorem publishBaseline_keeps (h : manager.Stores key report) (hnone : report.active = none)
    (hkeyed : ReportedBlocks.Keyed blocks) (baselineSeq : ℕ) (removedBlocks : List BlockId) :
    Keeps (publishBaseline key report baselineSeq blocks removedBlocks) manager := by
  unfold publishBaseline putReport
  apply keeps_update_bind
  apply keeps_update_bind
  apply keeps_notify_bind
  intro manager' hsame
  apply keeps_pure
  apply hsame.indexed
  have hactive : ActiveBlockReport.Sound ⟨baselineSeq, blocks, readyBlockIds blocks, 0⟩ :=
    ⟨hkeyed, fun _ => mem_readyBlockIds hkeyed⟩
  have hsound : WorkerBlockReportRuntime.Sound { report with
      staging := none
      active := some ⟨baselineSeq, blocks, readyBlockIds blocks, 0⟩ } := by
    refine ⟨?_, nofun, .inr rfl⟩
    rintro active ⟨⟩
    exact hactive
  exact h.indexed.putPublished hsound rfl h.run (h.inactive hnone)

theorem acceptBatch_keeps (h : manager.Stores key report) {staging : StagingFullBlockReport}
    (hstaging : report.staging = some staging) (baselineSeq batchSeq : ℕ) (finalBatch : Bool)
    (blocks : List BlockReportBlock) (removedBlocks : List BlockId) :
    Keeps (acceptBatch key report baselineSeq batchSeq finalBatch blocks removedBlocks)
      manager := by
  have hnone : report.active = none := by
    rcases h.sound.exclusive with hnone | hnone
    · exact hnone
    · cases hnone.symm.trans hstaging
  have hkeyed := h.sound.staging staging hstaging
  unfold acceptBatch
  rw [hstaging]
  change Keeps (if _ then _ else _) manager
  split
  · exact keeps_pure h.indexed
  · split
    · apply keeps_update_bind
      exact keeps_refuse (h.restage hnone nofun)
    · split
      · exact keeps_refuse h.indexed
      · have hstaged : ReportedBlocks.Keyed (stageBlocks staging.blocks blocks) :=
          keyed_stageBlocks hkeyed
        dsimp only
        split
        · apply keeps_update_bind
          apply keeps_refuse
          apply h.restage hnone
          rintro found ⟨⟩
          exact hstaged
        · split
          · exact publishBaseline_keeps h hnone hstaged baselineSeq removedBlocks
          · apply keeps_update_bind
            have hnext : ∀ nextBatchSeq, Indexed { manager with
                reports := manager.reports.put key { report with
                  staging := some ⟨staging.baselineSeq, nextBatchSeq,
                    stageBlocks staging.blocks blocks⟩ } } := by
              intro nextBatchSeq
              apply h.restage hnone
              rintro found ⟨⟩
              exact hstaged
            split
            · exact keeps_pure (hnext _)
            · apply keeps_notify_bind
              intro manager' hsame
              exact keeps_pure (hsame.indexed (hnext _))

theorem receiveBatch_keeps (h : manager.Stores key report) (baselineSeq batchSeq : ℕ)
    (finalBatch : Bool) (blocks : List BlockReportBlock) {continuingStaging : Bool}
    (hcontinuing : continuingStaging = true → ∃ staging, report.staging = some staging) :
    Keeps (receiveFullBlockReport.receiveBatch baselineSeq batchSeq finalBatch blocks key report
      continuingStaging) manager := by
  unfold receiveFullBlockReport.receiveBatch
  split
  next hyes =>
    obtain ⟨staging, hstaging⟩ := hcontinuing hyes
    exact acceptBatch_keeps h hstaging baselineSeq batchSeq finalBatch blocks []
  next =>
    apply ensures_bind
    unfold startBaseline putReport
    refine failIf_bind (fun _ => ⟨h.indexed, _, rfl⟩) fun _ => ?_
    apply ensures_write
    apply ensures_write
    apply ensures_pure
    let started : WorkerBlockReportRuntime := { report with
      active := none
      staging := some ⟨baselineSeq, 0, ∅⟩
      baselineHighWatermark := some baselineSeq }
    have hsound : started.Sound := by
      refine ⟨nofun, ?_, .inl rfl⟩
      rintro staging ⟨⟩
      exact keyed_empty
    have hstarted : Stores { manager with
        locations := dropReport manager.locations key report
        reports := manager.reports.put key started } key started := by
      refine ⟨h.indexed.putDropped h.stored hsound h.run rfl, ?_⟩
      change (manager.reports.put key started).get key = some started
      rw [get_put, if_pos rfl]
    exact acceptBatch_keeps hstarted rfl baselineSeq batchSeq finalBatch blocks _

theorem receiveFullBlockReport_keeps (h : manager.Indexed) (groupName : GroupName)
    (workerId : WorkerId) (workerRunId : WorkerRunId) (baselineSeq batchSeq : ℕ)
    (finalBatch : Bool) (blocks : List BlockReportBlock) (expireAt liveAt : ℕ) :
    Keeps (receiveFullBlockReport groupName workerId workerRunId baselineSeq batchSeq finalBatch
      blocks expireAt liveAt) manager := by
  unfold receiveFullBlockReport
  apply keeps_validateReportSource_bind h
  intro manager h
  apply keeps_current_bind
  apply keeps_refuseIf_bind h
  intro hregistered
  rw [Bool.not_eq_false] at hregistered
  apply keeps_update_bind
  let key : WorkerRegistrationKey := ⟨groupName, workerId⟩
  generalize hreport : (manager.reports.get key).getD (newReport workerRunId) = report
  have hstores : Stores { manager with reports := manager.reports.put key report } key report := by
    constructor
    · cases hfound : manager.reports.get key with
      | none =>
        rw [hfound] at hreport
        subst hreport
        refine h.putInactive ⟨nofun, nofun, .inl rfl⟩ hregistered ?_ rfl
        intro found hsome
        cases hfound.symm.trans hsome
      | some found =>
        rw [hfound] at hreport
        cases hreport
        refine h.congr rfl (ext_get fun owner => ?_) rfl
        change (manager.reports.put key found).get owner = _
        rw [get_put]
        split
        next heq => rw [heq, hfound]
        next => rfl
    · change (manager.reports.put key report).get key = some report
      rw [get_put, if_pos rfl]
  apply keeps_refuseIf_bind hstores.indexed
  intro _
  have hcontinuing : (report.staging.any fun staging => staging.baselineSeq = baselineSeq) =
      true → ∃ staging, report.staging = some staging := by
    rw [Option.any_eq_true]
    rintro ⟨staging, hstaging, -⟩
    exact ⟨staging, hstaging⟩
  split
  · exact keeps_pure hstores.indexed
  · dsimp only
    split
    · split
      · exact keeps_refuse hstores.indexed
      · exact receiveBatch_keeps hstores baselineSeq batchSeq finalBatch blocks hcontinuing
    · exact receiveBatch_keeps hstores baselineSeq batchSeq finalBatch blocks hcontinuing

/-! ## Deltas -/

/-- The accumulated state of a delta mirrors the blocks it has reached; other workers keep
their locations. -/
structure DeltaProgress.Sound (progress : DeltaProgress) (key : WorkerRegistrationKey)
    (locations : BlockLocations) : Prop where
  keyed : ReportedBlocks.Keyed progress.blocks
  ready : ∀ blockId, blockId ∈ progress.readyBlocks ↔ isReady progress.blocks blockId = true
  located : ∀ item owner, progress.locations.Listed item owner ↔
    (owner ≠ key ∧ locations.Listed item owner) ∨
    (owner = key ∧ item.groupName = key.groupName ∧ isReady progress.blocks item.blockId = true)

theorem keyed_applyToBlocks (h : ReportedBlocks.Keyed blocks) (change : BlockReportChange) :
    ReportedBlocks.Keyed (applyToBlocks change blocks) := by
  cases change with
  | upsert block => exact keyed_insert h block
  | remove blockId =>
    intro other block hlookup
    exact h other block (HashMap.lookup_of_erase hlookup)

theorem isReady_applyToBlocks {change : BlockReportChange} (hne : blockId ≠ change.blockId) :
    isReady (applyToBlocks change blocks) blockId = isReady blocks blockId := by
  unfold isReady
  cases change with
  | upsert block =>
    change blockId ≠ block.blockId at hne
    change Option.any _ ((blocks.insert block.blockId block).lookup blockId) = _
    rw [lookup_insert_eq, if_neg hne]
  | remove removed =>
    change blockId ≠ removed at hne
    change Option.any _ ((blocks.erase removed).lookup blockId) = _
    rw [lookup_erase_eq, if_neg hne]

theorem DeltaProgress.Sound.applyChange {progress : DeltaProgress}
    (h : progress.Sound key locations) (change : BlockReportChange) :
    (applyChange key progress change).Sound key locations := by
  have hkeyed := keyed_applyToBlocks h.keyed change
  have hothers : ∀ blockId, blockId ≠ change.blockId →
      isReady (applyToBlocks change progress.blocks) blockId =
        isReady progress.blocks blockId := fun _ hne => isReady_applyToBlocks hne
  have hwas := h.ready change.blockId
  unfold WorkerManager.applyChange
  dsimp only
  split
  next hold hnew =>
    have hold : change.blockId ∉ progress.readyBlocks := of_decide_eq_false hold
    refine ⟨hkeyed, ?_, ?_⟩
    · intro blockId
      dsimp only
      rw [mem_add]
      by_cases hsame : blockId = change.blockId
      · simp [hsame, hnew]
      · rw [hothers blockId hsame, h.ready blockId]
        simp [hsame]
    · intro item owner
      dsimp only
      rw [listed_addWorkerReadyLocations, h.located, List.mem_singleton]
      by_cases hsame : item.blockId = change.blockId
      · rw [hsame, hnew]
        tauto
      · rw [hothers item.blockId hsame]
        tauto
  next hold hnew =>
    refine ⟨hkeyed, ?_, ?_⟩
    · intro blockId
      dsimp only
      rw [mem_remove]
      by_cases hsame : blockId = change.blockId
      · simp [hsame, hnew]
      · rw [hothers blockId hsame, h.ready blockId]
        simp [hsame]
    · intro item owner
      dsimp only
      unfold removeWorkerReadyLocations
      rw [listed_unlistAll, mem_locationKeys, h.located, List.mem_singleton]
      by_cases hsame : item.blockId = change.blockId
      · rw [hsame, hnew]
        by_cases howner : owner = key
        · simp only [howner]
          tauto
        · tauto
      · rw [hothers item.blockId hsame]
        tauto
  next hneither hneither' =>
    have hunchanged : isReady (applyToBlocks change progress.blocks) change.blockId =
        isReady progress.blocks change.blockId := by
      by_cases hmem : change.blockId ∈ progress.readyBlocks
      · have hready : isReady (applyToBlocks change progress.blocks) change.blockId = true := by
          by_contra hnot
          exact hneither' (decide_eq_true hmem) (Bool.eq_false_of_not_eq_true hnot)
        rw [hready, hwas.1 hmem]
      · have hnot : isReady (applyToBlocks change progress.blocks) change.blockId = false := by
          by_contra hready
          exact hneither (decide_eq_false hmem) (Bool.eq_true_of_not_eq_false hready)
        rw [hnot]
        exact (Bool.eq_false_of_not_eq_true fun hyes => hmem (hwas.2 hyes)).symm
    have hall : ∀ blockId, isReady (applyToBlocks change progress.blocks) blockId =
        isReady progress.blocks blockId := by
      intro blockId
      by_cases hsame : blockId = change.blockId
      · rw [hsame, hunchanged]
      · exact hothers blockId hsame
    refine ⟨hkeyed, ?_, ?_⟩
    · intro blockId
      dsimp only
      rw [hall, h.ready]
    · intro item owner
      dsimp only
      rw [hall, h.located]

theorem DeltaProgress.Sound.applyChanges (changes : List BlockReportChange) :
    ∀ {progress : DeltaProgress}, progress.Sound key locations →
      (changes.foldl (WorkerManager.applyChange key) progress).Sound key locations := by
  induction changes with
  | nil =>
    intro progress h
    exact h
  | cons change changes ih =>
    intro progress h
    exact ih (h.applyChange change)

theorem invalidateActive_keeps (h : manager.Stores key report) (error : MetadataError) :
    Keeps (invalidateActive key report error) manager := by
  unfold invalidateActive putReport
  apply keeps_update_bind
  apply keeps_update_bind
  apply keeps_notify_bind
  intro manager' hsame
  apply keeps_refuse
  apply hsame.indexed
  have hsound : WorkerBlockReportRuntime.Sound { report with active := none } :=
    ⟨nofun, h.sound.staging, .inl rfl⟩
  exact h.indexed.putDropped h.stored hsound h.run rfl

theorem acceptDelta_keeps (h : manager.Stores key report)
    (hactive : report.active = some active) (nextBatchSeq : ℕ) (changes : List BlockReportChange) :
    Keeps (acceptDelta key report active nextBatchSeq changes) manager := by
  unfold acceptDelta
  split
  · exact keeps_refuse h.indexed
  · apply keeps_current_bind
    have hold := h.sound.active active hactive
    have hstart : DeltaProgress.Sound ⟨active.blocks, active.readyBlocks, manager.locations, [], []⟩
        key manager.locations := by
      refine ⟨hold.keyed, hold.ready, ?_⟩
      intro item owner
      by_cases howner : owner = key
      · subst howner
        rw [h.indexed.located]
        simp [h.stored, WorkerBlockReportRuntime.Shows, hactive]
      · simp [howner]
    have hprogress := hstart.applyChanges changes
    dsimp only
    generalize changes.foldl (WorkerManager.applyChange key) _ = progress at hprogress
    unfold putReport
    apply keeps_update_bind
    apply keeps_update_bind
    apply keeps_notify_bind
    intro manager' hsame
    apply keeps_pure
    apply hsame.indexed
    have hsound : WorkerBlockReportRuntime.Sound { report with
        active := some ⟨active.baselineSeq, progress.blocks, progress.readyBlocks,
          nextBatchSeq⟩ } := by
      refine ⟨?_, h.sound.staging, ?_⟩
      · rintro found ⟨⟩
        exact ⟨hprogress.keyed, hprogress.ready⟩
      · rcases h.sound.exclusive with hnone | hnone
        · cases hnone.symm.trans hactive
        · exact .inr hnone
    refine h.indexed.put hsound h.run ?_
    intro item owner
    rw [hprogress.located]
    simp [WorkerBlockReportRuntime.Shows]

theorem applyDeltaBlockReport_keeps (h : manager.Indexed) (groupName : GroupName)
    (workerId : WorkerId) (workerRunId : WorkerRunId) (baselineSeq batchSeq : ℕ)
    (changes : List BlockReportChange) (expireAt liveAt : ℕ) :
    Keeps (applyDeltaBlockReport groupName workerId workerRunId baselineSeq batchSeq changes
      expireAt liveAt) manager := by
  unfold applyDeltaBlockReport
  apply keeps_validateReportSource_bind h
  intro manager h
  apply keeps_current_bind
  apply keeps_refuseIf_bind h
  intro _
  apply keeps_okOr_bind h
  intro report hreport
  have hstores : manager.Stores ⟨groupName, workerId⟩ report := ⟨h, hreport⟩
  apply keeps_refuseIf_bind h
  intro _
  apply keeps_okOr_bind h
  intro active hactive
  dsimp only
  split
  · exact invalidateActive_keeps hstores _
  · split
    · exact keeps_refuse h
    · split
      · exact keeps_pure h
      · split
        · exact invalidateActive_keeps hstores _
        · split
          · exact invalidateActive_keeps hstores _
          · exact acceptDelta_keeps hstores hactive _ changes

/-! ## Whole runs -/

theorem Keeps.discard {x : WorkerM α} (h : Keeps x manager) :
    Keeps (do let _ ← x) manager := by
  apply Ensures.bind h
  · intro _ _ h'
    exact h'
  · intro _ manager' h'
    exact keeps_pure h'

theorem method_keeps (h : manager.Indexed) (call : WorkerCall) : Keeps (method call) manager := by
  cases call with
  | resetWorkerSoftState => exact resetWorkerSoftState_keeps manager
  | upsertDescriptor descriptor => exact upsertDescriptor_keeps h descriptor
  | loadRegisteredWorkers workers => exact loadRegisteredWorkers_keeps manager workers
  | validateWorkerRegistrationPreflight =>
    exact validateWorkerRegistrationPreflight_keeps h _ _ _ _ _ _
  | registerWorkerRun => exact registerWorkerRun_keeps h _ _ _ _ _ _
  | receiveFullBlockReport =>
    exact (receiveFullBlockReport_keeps h _ _ _ _ _ _ _ _ _).discard
  | applyDeltaBlockReport => exact (applyDeltaBlockReport_keeps h _ _ _ _ _ _ _ _).discard
  | markHeartbeatRejectionIfChanged =>
    exact (markHeartbeatRejectionIfChanged_keeps h _ _ _).discard
  | recordHeartbeatWithTierFree =>
    exact (recordHeartbeatWithTierFree_keeps h _ _ _ _ _ _ _ _ _ _).discard
  | expireLiveness now => exact (expireLiveness_keeps h now).discard
  | removeDeadWorker => exact (removeDeadWorker_keeps h _ _).discard

theorem Indexed.afterCall (h : manager.Indexed) (call : WorkerCall) :
    (manager.afterCall call).Indexed := by
  have hkeeps := method_keeps h call
  unfold WorkerManager.afterCall
  cases hrun : method call manager with
  | mk outcome =>
    cases outcome with
    | ok => exact hkeeps.of_ok hrun
    | error => exact (hkeeps.of_error hrun).1

theorem indexed_new (heartbeatTimeoutMs : ℕ) : (new heartbeatTimeoutMs).Indexed := by
  constructor
  · intro item key
    constructor
    · intro h
      exact absurd h not_listed_empty
    · rintro ⟨_, report, hreport, _⟩
      cases hreport
  · intro key report hreport
    cases hreport
  · intro key report hreport
    cases hreport

theorem Indexed.afterCalls (calls : List WorkerCall) :
    ∀ {manager : WorkerManager}, manager.Indexed → (manager.afterCalls calls).Indexed := by
  induction calls with
  | nil =>
    intro manager h
    exact h
  | cons call calls ih =>
    intro manager h
    exact ih (h.afterCall call)

/-- Whatever calls were made, also failing ones: a worker is listed for a block exactly when its
active baseline holds the block as ready, the ready set of a baseline is that of its blocks, a
report belongs to the registered run of its worker and is either active or staging. -/
theorem locations_invert_active_baselines (heartbeatTimeoutMs : ℕ) (calls : List WorkerCall) :
    let manager := (new heartbeatTimeoutMs).afterCalls calls
    (∀ groupName blockId key, manager.locations.Listed ⟨groupName, blockId⟩ key ↔
      groupName = key.groupName ∧ ∃ report active block,
        manager.reports.get key = some report ∧ report.active = some active ∧
        active.blocks.lookup blockId = some block ∧ block.blockState = .ready) ∧
    (∀ key report active, manager.reports.get key = some report →
      report.active = some active → ∀ blockId, blockId ∈ active.readyBlocks ↔
        ∃ block, active.blocks.lookup blockId = some block ∧ block.blockState = .ready) ∧
    (∀ key report, manager.reports.get key = some report →
      manager.hasRegisteredRun key report.workerRunId = true ∧
      (report.active = none ∨ report.staging = none)) := by
  intro manager
  have h : manager.Indexed := (indexed_new heartbeatTimeoutMs).afterCalls calls
  refine ⟨?_, ?_, ?_⟩
  · intro groupName blockId key
    rw [h.located]
    apply and_congr_right
    intro _
    constructor
    · rintro ⟨report, hreport, active, hactive, hready⟩
      obtain ⟨block, hblock, hstate⟩ := isReady_iff.1 hready
      exact ⟨report, active, block, hreport, hactive, hblock, hstate⟩
    · rintro ⟨report, active, block, hreport, hactive, hblock, hstate⟩
      exact ⟨report, hreport, active, hactive, isReady_iff.2 ⟨block, hblock, hstate⟩⟩
  · intro key report active hreport hactive blockId
    rw [((h.sound key report hreport).active active hactive).ready, isReady_iff]
  · intro key report hreport
    exact ⟨h.registered key report hreport, (h.sound key report hreport).exclusive⟩

end WorkerManager

end Beryl
