import Beryl.CreateReady

/-!
# Repeated file creations

A record remembers a created file until its session has expired and the table is
full.  A repeated creation is admitted until its own request deadline.  When the
deadline ends before the session, no operation creates two files; when it does
not, the record can be gone while the repetition is still admitted.
-/

namespace Beryl

open History Transaction CreateFileOperationId CreateRequest Store Reached OrderedTable List

def Command.proposedAtMs : Command → Option ℕ
  | .bootstrapNamespace proposedAtMs _ => some proposedAtMs
  | .createDirectory proposedAtMs _ _ _ _ => some proposedAtMs
  | .createFile proposedAtMs _ _ _ _ _ _ _ _ _ _ => some proposedAtMs
  | .delete proposedAtMs _ _ _ _ _ _ _ => some proposedAtMs
  | .rename proposedAtMs _ _ _ _ _ _ _ _ => some proposedAtMs
  | .acquireWriteLease proposedAtMs _ _ => some proposedAtMs
  | .allocateBlock _ _ => none
  | .endWriteLease proposedAtMs _ _ => some proposedAtMs
  | .publishFile proposedAtMs _ _ => some proposedAtMs
  | .commitFile proposedAtMs _ _ _ _ => some proposedAtMs
  | .registerWorkerDescriptor proposedAtMs _ _ _ _ _ => some proposedAtMs
  | .reclaimDetachedRoots _ _ _ => none

variable {request : CreateRequest} {s : Store} {i : InodeId} {k : ℕ}

theorem Command.proposedAtMs_of_createRequest {command : Command}
    (h : command.createRequest = some request) :
    command.proposedAtMs = some request.proposedAtMs := by
  cases command with
  | createFile =>
    cases h
    rfl
  | _ => cases h

def InProposalOrder (past : Past) (_ : Store) (entry : LogApply) : Prop :=
  ∀ earlier ∈ past, ∀ t t', earlier.label.command.proposedAtMs = some t →
    entry.command.proposedAtMs = some t' → t ≤ t'

/-- The transition creates an inode for a file creation with this identity. -/
structure CreatesInode (t : Transition Store LogApply) (operationId : CreateFileOperationId)
    (i : InodeId) : Prop where
  request : ∃ request, t.label.command.createRequest = some request ∧
    request.operationId = operationId
  free : t.before.inode i = none
  made : t.after.inode i ≠ none

/-! ## What a creation knows and leaves behind -/

theorem FileCreation.inode_new (c : FileCreation s) (hfree : s.inode i = none)
    (hnew : (s.applyBatch c.ops).inode i ≠ none) : i = c.record.inodeId := by
  obtain ⟨inode, hinode⟩ := Option.ne_none_iff_exists'.1 hnew
  rcases applyBatch_inode hinode with hold | ⟨hput, hid⟩
  · rw [hfree] at hold
    cases hold
  · rcases putInode_mem_createFileOps c.room hput with rfl | rfl
    · exact hid.symm
    · have hparent := c.target.parent_eq.1
      rw [show c.parent.inodeId = i from hid, hfree] at hparent
      cases hparent

theorem FileCreation.recordedIn (c : FileCreation s) : c.request.RecordedIn (s.applyBatch c.ops) :=
  ⟨c.record, c.records_ops.2 (.inl ⟨rfl, rfl⟩), rfl⟩

variable {entry : LogApply}

theorem Applies.creation {s' : Store} (h : Applies s entry s')
    (hrequest : entry.command.createRequest = some request) (hfree : s.inode i = none)
    (hnew : s'.inode i ≠ none) :
    ∃ c : FileCreation s, c.request = request ∧ s' = s.applyBatch c.ops ∧ i = c.record.inodeId := by
  rcases h.cases with ⟨success, batch, _, heffect, rfl⟩ | ⟨_, rfl⟩
  · rcases heffect.replay_cases with hkeeps | ⟨c, hc, rfl⟩
    · exfalso
      generalize entry.command = command at heffect hrequest
      cases heffect with
      | @fileMade _ _ _ _ _ _ _ _ _ _ _ _ _ _ record =>
        exact hkeeps (.putReplay record) (by simp [createFileOps, recordOps])
      | fileReplayed => exact hnew hfree
      | _ => cases hrequest
    · rw [hrequest] at hc
      exact ⟨c, (Option.some.inj hc).symm, rfl, c.inode_new hfree hnew⟩
  · exact absurd hfree hnew

variable {t : Transition Store LogApply} {past : Past}

theorem recorded_or_expired {admits : Past → Store → LogApply → Prop}
    (hrun : Run Applies admits empty past s) (ht : t ∈ past)
    (hrequest : t.label.command.createRequest = some request) (hfree : t.before.inode i = none)
    (hmade : t.after.inode i ≠ none) : request.RecordedIn s ∨ ∃ u ∈ past, ∃ proposedAtMs,
      u.label.command.proposedAtMs = some proposedAtMs ∧
        request.sessionExpiresAtMs ≤ proposedAtMs := by
  induction hrun with
  | start => cases ht
  | @next past s s' entry hrun hadmits hstep ih =>
    rcases mem_cons.1 ht with rfl | ht
    · obtain ⟨c, rfl, rfl, _⟩ := hstep.creation hrequest hfree hmade
      exact .inl c.recordedIn
    · rcases ih ht with ⟨record, hrecord, hexpires⟩ | ⟨u, hu, hexpired⟩
      · have hreplay := replaySound (hrun.mono fun _ _ => trivial)
        rcases hstep.record_kept_or hreplay hrecord with hkept | ⟨later, hlater, hgives⟩
        · exact .inl ⟨record, hkept, hexpires⟩
        · refine .inr ⟨_, mem_cons_self, later.proposedAtMs,
            Command.proposedAtMs_of_createRequest hlater, ?_⟩
          rw [← hexpires]
          exact hgives.expired
      · exact .inr ⟨u, mem_cons_of_mem _ hu, hexpired⟩

/-! ## A table filled with records -/

theorem command_mem_of_healthyRun {start : Store} {log : List Command}
    (ht : t ∈ (healthyRun start log).1) : t.label.command ∈ log := by
  induction log with
  | nil => cases ht
  | cons command older ih =>
    rcases mem_cons.1 ht with rfl | ht
    · exact mem_cons_self
    · exact mem_cons_of_mem _ (ih ht)

def fillName (k : ℕ) : String := String.singleton (Char.ofNat (65536 + k))

theorem fillName_toList (hk : k ≤ 65536) : ∃ c : Char, (fillName k).toList = [c] ∧
    c.toNat = 65536 + k := by
  have hvalid : (65536 + k).isValidChar := .inr ⟨by omega, by omega⟩
  refine ⟨Char.ofNat (65536 + k), by simp [fillName], ?_⟩
  rw [Char.ofNat, dif_pos hvalid]
  rfl

theorem fillName_inj {j : ℕ} (hj : j ≤ 65536) (hk : k ≤ 65536) (h : fillName j = fillName k) :
    j = k := by
  obtain ⟨c, hc, hcj⟩ := fillName_toList hj
  obtain ⟨d, hd, hdk⟩ := fillName_toList hk
  rw [h, hd] at hc
  cases hc
  omega

theorem fillName_valid (hk : k ≤ 65536) :
    validateRelativeComponents "CreateFile" [fillName k] = .ok () := by
  obtain ⟨c, hc, hck⟩ := fillName_toList hk
  have hne : fillName k ≠ "" := by
    intro h
    rw [h] at hc
    cases hc
  have hslash : c ≠ '/' := by
    rintro rfl
    change 47 = _ at hck
    omega
  have hzero : c ≠ '\x00' := by
    rintro rfl
    change 0 = _ at hck
    omega
  have hsize : (fillName k).utf8ByteSize ≤ maxPathComponentBytes := by
    rw [fillName, String.utf8ByteSize_singleton]
    exact (Char.utf8Size_le_four _).trans (by decide)
  simp [validateRelativeComponents, checkRelativeComponents, hc, hne, hslash.symm, hzero.symm,
    not_lt.2 hsize, maxPathComponents]

theorem fillName_ne (hk : k ≤ 65536) : fillName k ≠ "f" := by
  obtain ⟨c, hc, hck⟩ := fillName_toList hk
  intro h
  rw [h] at hc
  have hf : c = 'f' := (cons.inj hc).1.symm
  subst hf
  change 102 = _ at hck
  omega

section Fill

variable {s : Store} {k : ℕ}

/-- Inode 2 is gone but its creation is on record, and `k` more files were created. -/
structure Filled (k : ℕ) (s : Store) : Prop extends s.RootOpen where
  names : ∀ {name child}, s.dentry rootInodeId name = some child → ∃ j < k, name = fillName j
  next_eq : s.next = 3 + k
  first : ∃ record, s.createFileReplay.get (⟨7, 0⟩ : CreateFileOperationId).key = some record ∧
    record.expiresAtMs = 2
  others : ∀ {key record}, s.createFileReplay.get key = some record →
    record.operationId = ⟨7, 0⟩ ∨
      ∃ j < k, record.operationId = ⟨7, j + 1⟩ ∧ record.expiresAtMs = 3
  count_eq : s.createFileReplayCount.getD 0 = k + 1

theorem Filled.unused (h : Filled k s) (hk : k ≤ 65536) :
    s.dentry rootInodeId (fillName k) = none ∧ s.dentry rootInodeId "f" = none := by
  constructor
  · by_contra hsome
    obtain ⟨child, hchild⟩ := Option.ne_none_iff_exists'.1 hsome
    obtain ⟨j, hj, heq⟩ := h.names hchild
    have := fillName_inj hk (hj.le.trans hk) heq
    omega
  · by_contra hsome
    obtain ⟨child, hchild⟩ := Option.ne_none_iff_exists'.1 hsome
    obtain ⟨j, hj, heq⟩ := h.names hchild
    exact fillName_ne (hj.le.trans hk) heq.symm

theorem Filled.unrecorded (h : Filled k s) (hreplay : ReplaySound s) :
    s.createFileReplay.get (⟨7, k + 1⟩ : CreateFileOperationId).key = none := by
  by_contra hsome
  obtain ⟨record, hrecord⟩ := Option.ne_none_iff_exists'.1 hsome
  have hkey := hreplay.record_key hrecord
  rcases h.others hrecord with hid | ⟨j, hj, hid, _⟩
  · rw [hid] at hkey
    simp [key] at hkey
  · rw [hid] at hkey
    simp [key] at hkey
    omega

theorem Filled.takesFile (h : Filled k s) (hreplay : ReplaySound s) (hk : k < 65536)
    {t : ℕ} (ht : k = 65535 → 2 ≤ t) : s.TakesFile t ⟨7, k + 1⟩ (fillName k) where
  toRootOpen := h.toRootOpen
  valid := fillName_valid hk.le
  unused := (h.unused hk.le).1
  next_lt := by
    rw [h.next_eq]
    lia
  unrecorded := h.unrecorded hreplay
  room hfull := by
    obtain ⟨record, hrecord, hexpires⟩ := h.first
    refine ⟨record, ⟨_, hrecord⟩, ?_⟩
    rw [h.count_eq, maxCreateFileReplayRecords] at hfull
    exact hexpires.le.trans (ht (by omega))

theorem FileCreation.records_of_room (c : FileCreation s)
    (hroom : s.createFileReplayCount.getD 0 < maxCreateFileReplayRecords) :
    c.count = s.createFileReplayCount.getD 0 + 1 ∧ ∀ key,
      (s.applyBatch c.ops).createFileReplay.get key =
        if key = c.record.operationId.key then some c.record else s.createFileReplay.get key := by
  have hops := c.applyBatch_ops
  generalize hevicted : c.evicted = evicted at hops
  unfold FileCreation.evicted at hevicted
  rw [hops]
  have hempty : c.eviction = [] ∧ c.count = s.createFileReplayCount.getD 0 + 1 := by
    have h := c.room
    generalize c.eviction = eviction, c.count = count at h
    cases h with
    | free => exact ⟨rfl, rfl⟩
    | evict => omega
  refine ⟨hempty.2, fun key => ?_⟩
  rw [hempty.1] at hevicted
  subst hevicted
  exact get_put _ _ _ _

theorem Filled.next (h : Filled k s) (hk : k < 65535) (c : FileCreation s)
    (hc : c.request = ⟨1, ⟨7, k + 1⟩, 100, 3, rootInodeId, [fillName k]⟩) :
    Filled (k + 1) (s.applyBatch c.ops) := by
  obtain ⟨hparent, hname⟩ := c.in_root hc
  have hid : c.record.operationId = ⟨7, k + 1⟩ := congrArg operationId hc
  have hexpires : c.record.expiresAtMs = 3 := congrArg sessionExpiresAtMs hc
  have hroom : s.createFileReplayCount.getD 0 < maxCreateFileReplayRecords := by
    rw [h.count_eq, maxCreateFileReplayRecords]
    omega
  obtain ⟨hcount, hrecords⟩ := c.records_of_room hroom
  refine { c.rootOpen hparent h.toRootOpen with
    names := ?_, next_eq := ?_, first := ?_, others := ?_, count_eq := ?_ }
  · intro name child hchild
    rcases c.dentry_ops hchild with hold | rfl
    · obtain ⟨j, hj, hj'⟩ := h.names hold
      exact ⟨j, hj.trans k.lt_succ_self, hj'⟩
    · exact ⟨k, k.lt_succ_self, hname⟩
  · rw [c.next_ops, ← c.allocates.next_get, h.next_eq]
    lia
  · obtain ⟨record, hrecord, hfirst⟩ := h.first
    refine ⟨record, ?_, hfirst⟩
    rw [hrecords, hid, if_neg (by simp [key])]
    exact hrecord
  · intro key record hrecord
    rw [hrecords] at hrecord
    split at hrecord
    · cases hrecord
      exact .inr ⟨k, k.lt_succ_self, hid, hexpires⟩
    · rcases h.others hrecord with hfirst | ⟨j, hj, hother⟩
      · exact .inl hfirst
      · exact .inr ⟨j, hj.trans k.lt_succ_self, hother⟩
  · rw [c.count_ops, hcount, h.count_eq]
    rfl

end Fill

def removedLog : List Command :=
  [.delete 1 1 1 1 ["f"] 2 (some 1) false, createInRoot 1 ⟨7, 0⟩ 100 2 "f",
    .bootstrapNamespace 0 rootGroup]

theorem filled_removedLog : Filled 0 (healthyRun .empty removedLog).2 where
  mount := ⟨_, rfl, rfl, rfl⟩
  root := ⟨_, rfl, rfl⟩
  names {name child} h := by
    have hempty : (healthyRun .empty removedLog).2.dentries.entries = [] := rfl
    have hentry := ((healthyRun .empty removedLog).2.dentries.mem_entries_iff).2 h
    rw [hempty] at hentry
    cases hentry
  next_eq := rfl
  first := ⟨_, rfl, rfl⟩
  others {key record} h := by
    have hentries : (healthyRun .empty removedLog).2.createFileReplay.entries.map
      (fun entry => entry.2.operationId) = [⟨7, 0⟩] := rfl
    have hentry := ((healthyRun .empty removedLog).2.createFileReplay.mem_entries_iff).2 h
    have hmem := mem_map_of_mem (f := fun entry => entry.2.operationId) hentry
    rw [hentries] at hmem
    exact .inl (mem_singleton.1 hmem)
  count_eq := rfl

def ProposedBy (bound : ℕ) (past : Past) : Prop :=
  ∀ t ∈ past, ∀ proposedAtMs, t.label.command.proposedAtMs = some proposedAtMs →
    proposedAtMs ≤ bound

theorem ProposedBy.cons {bound bound' : ℕ} (h : ProposedBy bound past) (hle : bound ≤ bound')
    (ht : t.label.command.proposedAtMs = some bound') : ProposedBy bound' (t :: past) := by
  intro u hu proposedAtMs hproposed
  rcases mem_cons.1 hu with rfl | hu
  · rw [ht] at hproposed
    exact (Option.some.inj hproposed).ge
  · exact (h u hu _ hproposed).trans hle

variable {s : Store}

theorem Store.TakesFile.run {t bound deadline expires : ℕ}
    {operationId : CreateFileOperationId} {name : String} (h : s.TakesFile t operationId name)
    (hrun : Run Applies InProposalOrder empty past s) (hpast : ProposedBy bound past)
    (ht : bound ≤ t) (hdeadline : t ≤ deadline) (hexpires : t < expires) :
    ∃ c : FileCreation s, ∃ entry : LogApply,
      c.request = ⟨t, operationId, deadline, expires, rootInodeId, [name]⟩ ∧
      entry.command = createInRoot t operationId deadline expires name ∧
      Run Applies InProposalOrder empty (⟨s, entry, s.applyBatch c.ops⟩ :: past)
        (s.applyBatch c.ops) ∧ ProposedBy t (⟨s, entry, s.applyBatch c.ops⟩ :: past) := by
  have hreached : Reached past s := hrun.mono fun _ _ => trivial
  obtain ⟨c, hc, hstore⟩ := h.applied (keyed hreached) (replaySound hreached) hdeadline hexpires
  refine ⟨c, ⟨createInRoot t operationId deadline expires name, .initial,
    (s.applied (createInRoot t operationId deadline expires name)).1⟩, hc, rfl, .next hrun ?_ ?_,
    hpast.cons ht rfl⟩
  · intro earlier hearlier u u' hu hu'
    cases hu'
    exact (hpast earlier hearlier u hu).trans ht
  · rw [← hstore]
    exact ⟨.healthy s, _, rfl, rfl, rfl⟩

theorem run_removedLog : Run Applies InProposalOrder empty
    (healthyRun .empty removedLog).1 (healthyRun .empty removedLog).2 := by
  refine healthyRun_next (healthyRun_next (healthyRun_next .start ?_) ?_) ?_
  all_goals
    intro earlier hearlier t t' ht ht'
    have hcommand := command_mem_of_healthyRun hearlier
    generalize earlier.label.command = command at hcommand ht
    fin_cases hcommand <;> cases ht <;> cases ht' <;> decide

theorem proposedBy_removedLog : ProposedBy 1 (healthyRun .empty removedLog).1 := by
  intro t ht proposedAtMs hproposed
  have hcommand := command_mem_of_healthyRun ht
  generalize t.label.command = command at hcommand hproposed
  fin_cases hcommand <;> cases hproposed <;> decide

theorem creates_removedLog : ∃ first ∈ (healthyRun .empty removedLog).1,
    first.label.command = createInRoot 1 ⟨7, 0⟩ 100 2 "f" ∧ CreatesInode first ⟨7, 0⟩ 2 :=
  ⟨_, mem_cons_of_mem _ mem_cons_self, rfl, ⟨_, rfl, rfl⟩, rfl, by decide⟩

theorem exists_filled (hk : k ≤ 65535) : ∃ past s,
    Run Applies InProposalOrder empty past s ∧ Filled k s ∧ ProposedBy 1 past ∧
      (healthyRun .empty removedLog).1 ⊆ past := by
  induction k with
  | zero =>
    exact ⟨_, _, run_removedLog, filled_removedLog, proposedBy_removedLog, List.Subset.refl _⟩
  | succ k ih =>
    obtain ⟨past, s, hrun, hfilled, hpast, hfirst⟩ := ih (by omega)
    have hreplay := replaySound (hrun.mono fun _ _ => trivial)
    have htakes : s.TakesFile 1 ⟨7, k + 1⟩ (fillName k) :=
      hfilled.takesFile hreplay (by omega) (fun h => by omega)
    obtain ⟨c, entry, hc, _, hrun', hpast'⟩ :=
      htakes.run hrun hpast le_rfl (show 1 ≤ 100 by decide) (show 1 < 3 by decide)
    exact ⟨_, _, hrun', hfilled.next (by omega) c hc, hpast',
      fun t ht => mem_cons_of_mem _ (hfirst ht)⟩

/-- When the table is full and only the first session has expired, the record of the
first creation gives way. -/
theorem Filled.evicts (h : Filled 65535 s) (hreplay : ReplaySound s) (c : FileCreation s)
    (ht : c.proposedAtMs = 2) (hne : c.record.operationId ≠ ⟨7, 0⟩) :
    (s.applyBatch c.ops).createFileReplay.get (⟨7, 0⟩ : CreateFileOperationId).key = none := by
  have hevicted : c.evicted.createFileReplay.get (⟨7, 0⟩ : CreateFileOperationId).key = none := by
    have hroom := c.room
    unfold FileCreation.evicted
    generalize c.eviction = eviction, c.count = count at hroom
    cases hroom with
    | free hlt =>
      rw [h.count_eq, maxCreateFileReplayRecords] at hlt
      omega
    | @evict record expiresAtMs _ hfirst hexpired hrecord _ =>
      have hexpiry := s.createFileReplayExpiry.mem_entries_iff.1 (mem_of_head? hfirst)
      obtain ⟨other, hother, rfl⟩ := hreplay.expiry_record hexpiry
      cases hrecord.symm.trans hother
      rcases h.others hrecord with hid | ⟨j, _, _, hexpires⟩
      · rw [← hid]
        exact (get_delete _ _ _).trans (if_pos rfl)
      · omega
  by_contra hsome
  obtain ⟨kept, hkept⟩ := Option.ne_none_iff_exists'.1 hsome
  rcases c.records_ops.1 hkept with ⟨hkey, _⟩ | ⟨_, hkept⟩
  · exact hne (key_inj.1 hkey).symm
  · rw [hevicted] at hkept
    cases hkept

theorem FileCreation.createsInode (c : FileCreation s)
    (hrequest : entry.command.createRequest = some c.request) :
    CreatesInode ⟨s, entry, s.applyBatch c.ops⟩ c.record.operationId c.record.inodeId where
  request := ⟨_, hrequest, rfl⟩
  free := by
    by_contra hsome
    obtain ⟨inode, hinode⟩ := Option.ne_none_iff_exists'.1 hsome
    exact absurd (c.allocates.ahead hinode) (lt_irrefl _)
  made := by
    show (s.applyBatch c.ops).inodes.get c.record.inodeId ≠ none
    rw [c.inodes_ops, get_put, get_put]
    split <;> simp

/-! ## Creating once -/

/-- A creation whose identity was used before is proposed before the session of the
earlier one expires, or after its own request deadline. -/
def RetriedInTime (past : Past) (_ : Store) (entry : LogApply) : Prop :=
  ∀ request, entry.command.createRequest = some request →
    ∀ earlier ∈ past, ∀ first, earlier.label.command.createRequest = some first →
      first.operationId = request.operationId →
      request.proposedAtMs < first.sessionExpiresAtMs ∨
        request.requestDeadlineMs < request.proposedAtMs

/-- When repetitions come in time, no operation creates a second inode, whatever
happened to the first one and however many other files were created. -/
theorem operation_creates_one_inode {past : Past} {s : Store}
    (hrun : Run Applies (fun past s entry => InProposalOrder past s entry ∧
      RetriedInTime past s entry) Store.empty past s) :
    (past.Pairwise fun later earlier => ∀ operationId i j,
      CreatesInode earlier operationId i → ¬CreatesInode later operationId j) ∧
    ∀ t ∈ past, ∀ operationId i j, CreatesInode t operationId i →
      CreatesInode t operationId j → i = j := by
  constructor
  · apply Run.pairwise_past hrun
    intro past s entry s' hrun hadmits hstep earlier hearlier operationId i j hfirst hagain
    obtain ⟨⟨first, hfirst', rfl⟩, hfree, hmade⟩ := hfirst
    obtain ⟨⟨request, hrequest, hid⟩, hfree', hmade'⟩ := hagain
    obtain ⟨c, rfl, _, _⟩ := hstep.creation hrequest hfree' hmade'
    rcases recorded_or_expired hrun hearlier hfirst' hfree hmade with
      ⟨record, hrecord, _⟩ | ⟨u, hu, t, ht, hexpired⟩
    · have hnew := c.isNew
      rw [show c.record.operationId = first.operationId from hid, hrecord] at hnew
      cases hnew
    · have hordered := hadmits.1 u hu t c.proposedAtMs ht
        (Command.proposedAtMs_of_createRequest hrequest)
      have hdeadline := c.inDeadline
      have hintime := hadmits.2 _ hrequest earlier hearlier first hfirst' hid.symm
      simp only [FileCreation.request] at hintime
      omega
  · intro t ht operationId i j hi hj
    obtain ⟨older, _, _, hstep⟩ := Run.of_mem hrun ht
    obtain ⟨request, hrequest, _⟩ := hi.request
    obtain ⟨c, hc, hafter, hid⟩ := hstep.creation hrequest hi.free hi.made
    have hmade := hj.made
    rw [hafter] at hmade
    rw [hid, c.inode_new hj.free hmade]

theorem operation_creates_one_inode_retried :
    let retry : Command := .createFile 2 ⟨7, 1⟩ 10 20 "/f" 1 1 1 ["f"] .new sampleLayout
    let run := healthyRun .empty
      [retry, .createFile 1 ⟨7, 1⟩ 10 20 "/f" 1 1 1 ["f"] .new sampleLayout,
        .bootstrapNamespace 0 rootGroup]
    run.1.map (fun t => t.label.success) = [some (.fileCreated 2 sampleLayout 1 20 0),
        some (.fileCreated 2 sampleLayout 1 20 0),
        some (.mountUpserted (rootMountEntry rootGroup))] ∧
      run.1.Pairwise fun later earlier => ∀ operationId i j,
        CreatesInode earlier operationId i → ¬CreatesInode later operationId j := by
  intro retry run
  refine ⟨rfl, (operation_creates_one_inode (s := run.2) ?_).1⟩
  refine healthyRun_next (healthyRun_next (healthyRun_next .start ?_) ?_) ?_
  all_goals
    constructor
    · intro earlier hearlier t t' ht ht'
      have hcommand := command_mem_of_healthyRun hearlier
      generalize earlier.label.command = command at hcommand ht
      fin_cases hcommand <;> cases ht <;> cases ht' <;> decide
    · intro request hrequest earlier hearlier first hfirst _
      have hcommand := command_mem_of_healthyRun hearlier
      generalize earlier.label.command = command at hcommand hfirst
      fin_cases hcommand <;> cases hfirst <;> cases hrequest <;> decide

/-- A retry within its own deadline, after 65536 other creations and the end of the
first session, creates the file again. -/
theorem operation_creates_two_inodes : ∃ past s first second i j,
    Run Applies InProposalOrder Store.empty past s ∧ first ∈ past ∧ second ∈ past ∧
    first.label.command = createInRoot 1 ⟨7, 0⟩ 100 2 "f" ∧
    second.label.command = createInRoot 4 ⟨7, 0⟩ 100 10 "f" ∧
    CreatesInode first ⟨7, 0⟩ i ∧ CreatesInode second ⟨7, 0⟩ j ∧ i ≠ j := by
  obtain ⟨past, s, hrun, hfilled, hpast, hfirst⟩ := exists_filled (le_refl 65535)
  have hreached : Reached past s := hrun.mono fun _ _ => trivial
  have htakes : s.TakesFile 2 ⟨7, 65536⟩ (fillName 65535) :=
    hfilled.takesFile (replaySound hreached) (by decide) fun _ => le_rfl
  obtain ⟨c, entry, hc, hentry, hrun', hpast'⟩ :=
    htakes.run hrun hpast (by decide) (show 2 ≤ 100 by decide) (show 2 < 4 by decide)
  have hid : c.record.operationId = ⟨7, 65536⟩ := congrArg operationId hc
  have hnext : (s.applyBatch c.ops).next = 65539 := by
    rw [c.next_ops, ← c.allocates.next_get, hfilled.next_eq]
  have htakes' : (s.applyBatch c.ops).TakesFile 4 ⟨7, 0⟩ "f" :=
    { c.rootOpen (c.in_root hc).1 hfilled.toRootOpen with
      valid := by decide
      unused := by
        by_contra hsome
        obtain ⟨child, hchild⟩ := Option.ne_none_iff_exists'.1 hsome
        rcases c.dentry_ops hchild with hold | hname
        · rw [(hfilled.unused (by decide)).2] at hold
          cases hold
        · rw [(c.in_root hc).2] at hname
          exact fillName_ne (by decide) hname.symm
      next_lt := by
        rw [hnext]
        decide
      unrecorded := hfilled.evicts (replaySound hreached) c
        (congrArg proposedAtMs hc) (by rw [hid]; decide)
      room := fun _ => by
        obtain ⟨record, hrecord, hexpires⟩ := c.recordedIn
        refine ⟨record, ⟨_, hrecord⟩, ?_⟩
        rw [hexpires, hc] }
  obtain ⟨c', entry', hc', hentry', hrun'', _⟩ :=
    htakes'.run hrun' hpast' (by decide) (show 4 ≤ 100 by decide) (show 4 < 10 by decide)
  have hcreates : CreatesInode ⟨_, entry', _⟩ _ _ := c'.createsInode (by rw [hentry', hc']; rfl)
  rw [show c'.record.operationId = ⟨7, 0⟩ from congrArg operationId hc',
    ← c'.allocates.next_get, hnext] at hcreates
  obtain ⟨first, hmem, hcommand, hmade⟩ := creates_removedLog
  exact ⟨_, _, first, _, 2, 65539, hrun'', mem_cons_of_mem _ (mem_cons_of_mem _
    (hfirst hmem)), mem_cons_self, hcommand, hentry', hmade, hcreates, by decide⟩

end Beryl
