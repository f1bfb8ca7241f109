import Beryl.StorageSpec

/-!
# Specification of reclamation

The candidate loop keeps a plan whose entries are real children of marked
directories, whose byte count is the one the batch will have, and whose counters
stay within the command's budgets.  The command ends in an internal error only
when the apply state and the first planned item together exceed the byte budget.
-/

namespace Beryl

open Transaction DetachedRootReclaimEntry DetachedRootReclaimUpdate ReclaimState Store List

variable {hyp : Prop} {db : Db} {raftState : AppMetadataRaftState}
  {entry : DetachedRootReclaimEntry} {marker : DetachedRoot}

/-! ## Logical bytes -/

def DetachedRootReclaimEntry.bytes (entry : DetachedRootReclaimEntry) : ℕ :=
  dentryKeyLen entry.name +
    match entry.childDetachedRoot with
    | some root => detachedRootKeyLen + root.encodedLen
    | none => inodeKeyLen

def completedRootBytes : ℕ := inodeKeyLen + detachedRootKeyLen

def DetachedRootReclaimUpdate.bytes (update : DetachedRootReclaimUpdate) : ℕ :=
  (update.entries.map DetachedRootReclaimEntry.bytes).sum +
    update.completedRootInodeIds.length * completedRootBytes

def StorageEnv.applyStateBytes (env : StorageEnv) (raftState : AppMetadataRaftState) :
    ℕ :=
  raftStateKeyLen + env.raftStateJsonLen raftState

theorem checkedAdd_ensures {left right : ℕ} {error : MetadataError}
    (hbound : hyp → left + right < 2 ^ 64) : Ensures (okOrElse (checkedAddU64 left right) error) db
      (fun sum db' => db' = db ∧ sum = left + right) (Refusal hyp db) := by
  refine ensures_okOr (fun hoverflow => .excluded fun hhyp => ?_)
    fun sum hsum => ⟨rfl, (checkedAddU64_eq_some hsum).1⟩
  rw [checkedAddU64_of_lt (hbound hhyp)] at hoverflow
  cases hoverflow

theorem logicalBytes_ensures (hfit : hyp → db.Fit) (hbound : hyp → entry.bytes < 2 ^ 64) :
    Ensures entry.logicalBytes db
      (fun bytes db' => db' = db ∧ bytes = entry.bytes) (Refusal hyp db) := by
  unfold DetachedRootReclaimEntry.bytes at hbound ⊢
  unfold logicalBytes
  cases hroot : entry.childDetachedRoot with
  | none =>
    rw [hroot] at hbound
    exact checkedAdd_ensures hbound
  | some =>
    rw [hroot] at hbound
    refine encode_bind hfit (reads_bind (checkedAdd_ensures fun hhyp => ?_) ?_)
    · have := hbound hhyp
      simp only at this
      omega
    rintro _ rfl
    refine (checkedAdd_ensures fun hhyp => ?_).mono ?_ fun _ _ h => h
    · have := hbound hhyp
      simp only at this
      omega
    rintro _ _ ⟨rfl, rfl⟩
    exact ⟨rfl, Nat.add_assoc _ _ _⟩

theorem completedRootLogicalBytes_ensures : Ensures completedRootLogicalBytes db
      (fun bytes db' => db' = db ∧ bytes = completedRootBytes) (Refusal hyp db) := by
  unfold completedRootLogicalBytes completedRootBytes
  exact checkedAdd_ensures fun _ => by decide

theorem entriesLogicalBytes_ensures (hfit : hyp → db.Fit)
    (entries : List DetachedRootReclaimEntry) :
    ∀ bytes, (hyp → bytes + (entries.map DetachedRootReclaimEntry.bytes).sum < 2 ^ 64) →
    Ensures (entriesLogicalBytes bytes entries) db (fun total db' => db' = db ∧
        total = bytes + (entries.map DetachedRootReclaimEntry.bytes).sum) (Refusal hyp db) := by
  induction entries with
  | nil =>
    intro bytes _
    exact ensures_pure ⟨rfl, rfl⟩
  | cons entry rest ih =>
    intro bytes hbound
    simp only [map_cons, sum_cons] at hbound ⊢
    refine reads_bind (logicalBytes_ensures hfit fun hhyp => ?_) ?_
    · have := hbound hhyp
      omega
    rintro _ rfl
    refine reads_bind (checkedAdd_ensures fun hhyp => ?_) ?_
    · have := hbound hhyp
      omega
    rintro _ rfl
    refine (ih _ fun hhyp => ?_).mono ?_ fun _ _ h => h
    · have := hbound hhyp
      omega
    rintro _ _ ⟨rfl, rfl⟩
    exact ⟨rfl, by omega⟩

theorem completionsLogicalBytes_ensures (roots : List InodeId) :
    ∀ bytes, (hyp → bytes + roots.length * completedRootBytes < 2 ^ 64) →
    Ensures (completionsLogicalBytes bytes roots) db
      (fun total db' => db' = db ∧ total = bytes + roots.length * completedRootBytes)
      (Refusal hyp db) := by
  induction roots with
  | nil =>
    intro bytes _
    exact ensures_pure ⟨rfl, by simp⟩
  | cons root rest ih =>
    intro bytes hbound
    simp only [length_cons, Nat.succ_mul] at hbound ⊢
    refine reads_bind completedRootLogicalBytes_ensures ?_
    rintro _ rfl
    refine reads_bind (checkedAdd_ensures fun hhyp => ?_) ?_
    · have := hbound hhyp
      omega
    rintro _ rfl
    refine (ih _ fun hhyp => ?_).mono ?_ fun _ _ h => h
    · have := hbound hhyp
      omega
    rintro _ _ ⟨rfl, rfl⟩
    exact ⟨rfl, by omega⟩

theorem raftStateLen_bind {α : Type} {f : ℕ → StorageM α} {ok : α → Db → Prop}
    (hok : Ensures (f (db.env.raftStateJsonLen raftState)) db ok (Refusal hyp db)) :
    Ensures (raftStateLen raftState >>= f) db ok (Refusal hyp db) :=
  ensures_bind hok

theorem logicalBatchBytes_ensures {update : DetachedRootReclaimUpdate} (hfit : hyp → db.Fit)
    (hbound : hyp → db.env.applyStateBytes raftState + update.bytes < 2 ^ 64) :
    Ensures (update.logicalBatchBytes raftState) db (fun bytes db' => db' = db ∧
        bytes = db.env.applyStateBytes raftState + update.bytes) (Refusal hyp db) := by
  unfold DetachedRootReclaimUpdate.logicalBatchBytes
  unfold DetachedRootReclaimUpdate.bytes StorageEnv.applyStateBytes at *
  refine encode_bind hfit (raftStateLen_bind (reads_bind (checkedAdd_ensures fun hhyp => ?_) ?_))
  · have := hbound hhyp
    omega
  rintro _ rfl
  refine reads_bind (entriesLogicalBytes_ensures hfit _ _ fun hhyp => ?_) ?_
  · have := hbound hhyp
    omega
  rintro _ rfl
  refine (completionsLogicalBytes_ensures _ _ fun hhyp => ?_).mono ?_ fun _ _ h => h
  · have := hbound hhyp
    omega
  rintro _ _ ⟨rfl, rfl⟩
  exact ⟨rfl, by omega⟩

theorem DetachedRoot.encodedLen_le (root : DetachedRoot) : root.encodedLen ≤ 18 := by
  have hvarint : ∀ value, varintLen value ≤ 9 := by
    intro value
    unfold varintLen
    split_ifs <;> omega
  have hmount := hvarint root.mountId
  have htime := hvarint root.detachedAtMs
  unfold DetachedRoot.encodedLen
  omega

theorem DetachedRootReclaimEntry.bytes_le (hname : ValidName entry.name) : entry.bytes ≤ 296 := by
  have hsize := hname.size_le
  unfold maxPathComponentBytes at hsize
  unfold bytes dentryKeyLen detachedRootKeyLen inodeKeyLen
  cases entry.childDetachedRoot with
  | none =>
    simp only
    omega
  | some root =>
    have := root.encodedLen_le
    simp only
    omega

/-! ## One entry -/

def Store.reclaimEntry (s : Store) (marker : DetachedRoot) (rootInodeId : InodeId)
    (name : String) (child : InodeId) : DetachedRootReclaimEntry :=
  ⟨rootInodeId, name, child,
    match s.inode child with
    | some inode => if inode.kind = .dir then some marker else none
    | none => none⟩

def Store.firstItemBytes (s : Store) (marker : DetachedRoot) (rootInodeId : InodeId) :
    ℕ :=
  match s.dentriesUnder rootInodeId with
  | [] => completedRootBytes
  | (name, child) :: _ => (s.reclaimEntry marker rootInodeId name child).bytes

/-- The bytes of the first item a reclamation plans, none when no candidate is
marked. -/
def Store.firstReclaimBytes (s : Store) : List InodeId → ℕ
  | [] => 0
  | rootInodeId :: rest =>
    match s.marker rootInodeId with
    | none => s.firstReclaimBytes rest
    | some marker => s.firstItemBytes marker rootInodeId

/-- The command is a reclamation whose byte budget does not hold the apply state
together with its first item. -/
def Command.ExceedsReclaimBudget (env : StorageEnv) (raftState : AppMetadataRaftState)
    (s : Store) : Command → Prop
  | .reclaimDetachedRoots candidates _ maxBatchBytes =>
    maxBatchBytes < env.applyStateBytes raftState + s.firstReclaimBytes candidates
  | _ => False

theorem validateDetachedRoot_ensures {rootInodeId : InodeId} (hfit : hyp → db.Fit)
    (hmarker : db.store.marker rootInodeId = some marker) :
    Ensures (validateDetachedRoot rootInodeId marker) db
      (fun mountRoot db' => db' = db ∧ db.store.IsMountRoot mountRoot) (Refusal hyp db) := by
  unfold validateDetachedRoot
  have hmarked : hyp → marker.mountId = rootMountId ∧
      ∃ inode, db.store.inode rootInodeId = some inode ∧ inode.kind = .dir :=
    fun hhyp => (hfit hhyp).linked.marked_dir hmarker
  refine query_bind hfit (okOr_bind (fun hnone => ?_) fun root hroot => ?_)
  · refine .excluded fun hhyp => ?_
    obtain ⟨_, inode, hinode, _⟩ := hmarked hhyp
    rw [hnone] at hinode
    cases hinode
  refine failIf_bind (fun hne => .excluded fun hhyp => hne ?_) fun _ => ?_
  · exact (hfit hhyp).linked.inodeId_eq hroot
  refine failIf_bind (fun hne => .excluded fun hhyp => hne ?_) fun _ => ?_
  · obtain ⟨_, inode, hinode, hdir⟩ := hmarked hhyp
    rw [hroot] at hinode
    cases hinode
    exact fileType_eq_dir.2 hdir
  refine failIf_bind (fun hne => .excluded fun hhyp => hne ?_) fun _ => ?_
  · exact ((hfit hhyp).linked.mountId_eq hroot).trans (hmarked hhyp).1.symm
  refine query_bind hfit (okOr_bind (fun hnone => ?_) fun mount hmount => ?_)
  · refine .excluded fun hhyp => ?_
    obtain ⟨entry, hentry⟩ := (hfit hhyp).linked.mount_exists
    rw [(hmarked hhyp).1, hentry] at hnone
    cases hnone
  refine failIf_bind (fun hne => .excluded fun hhyp => hne ?_) fun _ => ?_
  · exact ((hfit hhyp).linked.mount_root hmount).2.1
  refine failIf_bind (fun heq => .excluded fun hhyp => ?_) fun _ => ?_
  · exact (hfit hhyp).linked.root_unmarked hmarker ⟨_, mount, hmount, heq⟩
  exact ensures_pure ⟨rfl, _, mount, hmount, rfl⟩

theorem prepareDetachedRootEntry_ensures {rootInodeId mountRoot child : InodeId} {name : String}
    (hfit : hyp → db.Fit) (hmarker : db.store.marker rootInodeId = some marker)
    (hmount : db.store.IsMountRoot mountRoot)
    (hdentry : db.store.dentry rootInodeId name = some child) :
    Ensures (prepareDetachedRootEntry rootInodeId name child marker mountRoot) db
      (fun entry db' => db' = db ∧ entry = db.store.reclaimEntry marker rootInodeId name child ∧
        ReclaimableEntry db.store entry) (Refusal hyp db) := by
  unfold prepareDetachedRootEntry
  refine failIf_bind (fun hbad => .excluded fun hhyp => ?_) fun _ => ?_
  · have hvalid := (hfit hhyp).names hdentry
    rcases hbad with h | h | h | h
    · exact hvalid.ne_empty h
    · exact absurd hvalid.size_le (not_le.2 h)
    · exact hvalid.no_slash h
    · exact hvalid.no_nul h
  refine failIf_bind (fun hzero => .excluded fun hhyp => ?_) fun _ => ?_
  · obtain ⟨inode, hinode⟩ := (hfit hhyp).linked.child_exists hdentry
    have := (hfit hhyp).linked.inode_pos hinode
    lia
  refine reads_bind (getDetachedRoot_ensures hfit) ?_
  rintro _ rfl
  refine failIf_bind (fun hsome => .excluded fun hhyp => hsome ?_) fun hunmarked => ?_
  · exact (hfit hhyp).linked.child_unmarked hdentry
  have hunmarked := not_not.1 hunmarked
  refine query_bind hfit (okOr_bind (fun hnone => ?_) fun inode hinode => ?_)
  · refine .excluded fun hhyp => ?_
    obtain ⟨inode, hinode⟩ := (hfit hhyp).linked.child_exists hdentry
    rw [hnone] at hinode
    cases hinode
  refine failIf_bind (fun hne => .excluded fun hhyp => hne ?_) fun _ => ?_
  · exact (hfit hhyp).linked.inodeId_eq hinode
  refine failIf_bind (fun hne => .excluded fun hhyp => hne ?_) fun hmountId => ?_
  · have hlinked := (hfit hhyp).linked
    exact (hlinked.mountId_eq hinode).trans (hlinked.marked_dir hmarker).1.symm
  have hmountId := not_not.1 hmountId
  cases hkind : inode.kind with
  | dir =>
    refine failIf_bind (fun heq => .excluded fun hhyp => ?_) fun _ => ?_
    · rw [heq] at hdentry
      exact (hfit hhyp).linked.root_unentered hdentry hmount
    refine ensures_pure ⟨rfl, by simp [reclaimEntry, hinode, hkind], ?_⟩
    exact ⟨marker, inode, hmarker, hdentry, hunmarked, hinode, hmountId,
      by simp [hkind]⟩
  | file =>
    refine ensures_pure ⟨rfl, by simp [reclaimEntry, hinode, hkind], ?_⟩
    exact ⟨marker, inode, hmarker, hdentry, hunmarked, hinode, hmountId,
      by simp [hkind]⟩

/-! ## The candidate loop -/

/-- What the candidate loop keeps.  `base` is the size of the apply state. -/
structure ReclaimState.Holds (s : Store) (base : ℕ) (candidates : List InodeId)
    (maxEntries maxBatchBytes : ℕ) (st : ReclaimState) : Prop where
  entries_ok : ∀ entry ∈ st.update.entries, ReclaimableEntry s entry
  parents_seen : ∀ entry ∈ st.update.entries, entry.parentInodeId ∈ st.seenCandidates
  planned_iff : ∀ {i}, i ∈ st.plannedEntryInodeIds ↔
    i ∈ st.update.entries.map DetachedRootReclaimEntry.inodeId
  entries_nodup : (st.update.entries.map DetachedRootReclaimEntry.inodeId).Nodup
  seen_mem : ∀ root ∈ st.seenCandidates, root ∈ candidates
  completed_nodup : st.update.completedRootInodeIds.Nodup
  completed_seen : ∀ root ∈ st.update.completedRootInodeIds, root ∈ st.seenCandidates
  completed_marked : ∀ root ∈ st.update.completedRootInodeIds,
    ∃ marker, s.marker root = some marker
  completed_empty : ∀ root ∈ st.update.completedRootInodeIds, ∀ name child,
    s.dentry root name = some child → ∃ entry ∈ st.update.entries,
      entry.parentInodeId = root ∧ entry.name = name ∧ entry.inodeId = child
  processed_eq : st.processedEntries = st.update.entries.length
  processed_le : st.processedEntries ≤ maxEntries
  created_eq : st.createdRoots = st.update.entries.countP (·.childDetachedRoot.isSome)
  bytes_eq : st.logicalBatchBytes = base + st.update.bytes
  bytes_le : st.logicalBatchBytes ≤ maxBatchBytes

section Loop

variable {s : Store} {base maxEntries maxBatchBytes : ℕ} {candidates : List InodeId}
  {st st' : ReclaimState} {root : InodeId}

namespace ReclaimState.Holds

theorem start (hbase : base ≤ maxBatchBytes) :
    ReclaimState.Holds s base candidates maxEntries maxBatchBytes
      { update := ⟨[], []⟩, logicalBatchBytes := base, seenCandidates := [],
        plannedEntryInodeIds := [], processedEntries := 0, createdRoots := 0 } := by
  constructor <;> simp [DetachedRootReclaimUpdate.bytes, hbase]

section

variable (h : st.Holds s base candidates maxEntries maxBatchBytes)
include h

theorem see
    (hroot : root ∈ candidates) :
    ReclaimState.Holds s base candidates maxEntries maxBatchBytes
      { st with seenCandidates := root :: st.seenCandidates } :=
  { h with
    parents_seen entry hentry := mem_cons_of_mem _ (h.parents_seen entry hentry)
    seen_mem c hc := by
      rcases mem_cons.1 hc with rfl | hc
      · exact hroot
      · exact h.seen_mem c hc
    completed_seen c hc := mem_cons_of_mem _ (h.completed_seen c hc) }

theorem pushEntry {bytes : ℕ} (hentry : ReclaimableEntry s entry)
    (hparent : entry.parentInodeId ∈ st.seenCandidates)
    (hnew : entry.inodeId ∉ st.plannedEntryInodeIds) (hroom : st.processedEntries ≠ maxEntries)
    (hbytes : bytes = st.logicalBatchBytes + entry.bytes) (hbudget : bytes ≤ maxBatchBytes) :
    (st.pushEntry entry bytes).Holds s base candidates maxEntries maxBatchBytes :=
  { h with
    entries_ok e he := by
      rcases mem_append.1 he with he | he
      · exact h.entries_ok e he
      · rw [mem_singleton.1 he]
        exact hentry
    parents_seen e he := by
      rcases mem_append.1 he with he | he
      · exact h.parents_seen e he
      · rw [mem_singleton.1 he]
        exact hparent
    planned_iff := by
      intro i
      simp only [ReclaimState.pushEntry, mem_cons, map_append, mem_append, h.planned_iff, map_cons,
        map_nil, not_mem_nil, or_false]
      exact or_comm
    entries_nodup := by
      simp only [ReclaimState.pushEntry, map_append, map_cons, map_nil]
      refine nodup_append.2 ⟨h.entries_nodup, nodup_singleton _, ?_⟩
      rintro i hi j hj rfl
      rw [mem_singleton.1 hj] at hi
      exact hnew (h.planned_iff.2 hi)
    completed_empty c hc name child hdentry := by
      obtain ⟨e, he, hfields⟩ := h.completed_empty c hc name child hdentry
      exact ⟨e, mem_append_left _ he, hfields⟩
    processed_eq := by
      simp only [ReclaimState.pushEntry, length_append, length_singleton, h.processed_eq]
    processed_le := by
      have := h.processed_le
      simp only [ReclaimState.pushEntry]
      omega
    created_eq := by
      simp only [ReclaimState.pushEntry, countP_append, countP_singleton, h.created_eq]
    bytes_eq := by
      have := h.bytes_eq
      simp only [ReclaimState.pushEntry, DetachedRootReclaimUpdate.bytes, map_append, sum_append,
        map_cons, map_nil, sum_cons, sum_nil] at this ⊢
      omega
    bytes_le := hbudget }

theorem pushCompletion {bytes : ℕ} (hroot : root ∈ st.seenCandidates)
    (hnew : root ∉ st.update.completedRootInodeIds) (hmarker : s.marker root = some marker)
    (hempty : ∀ name child, s.dentry root name = some child → ∃ entry ∈ st.update.entries,
        entry.parentInodeId = root ∧ entry.name = name ∧ entry.inodeId = child)
    (hbytes : bytes = st.logicalBatchBytes + completedRootBytes) (hbudget : bytes ≤ maxBatchBytes) :
    (st.pushCompletion root bytes).Holds s base candidates maxEntries maxBatchBytes :=
  { h with
    completed_nodup := by
      refine nodup_append.2 ⟨h.completed_nodup, nodup_singleton _, ?_⟩
      rintro i hi j hj rfl
      rw [mem_singleton.1 hj] at hi
      exact hnew hi
    completed_seen c hc := by
      rcases mem_append.1 hc with hc | hc
      · exact h.completed_seen c hc
      · rw [mem_singleton.1 hc]
        exact hroot
    completed_marked c hc := by
      rcases mem_append.1 hc with hc | hc
      · exact h.completed_marked c hc
      · rw [mem_singleton.1 hc]
        exact ⟨marker, hmarker⟩
    completed_empty c hc := by
      rcases mem_append.1 hc with hc | hc
      · exact h.completed_empty c hc
      · rw [mem_singleton.1 hc]
        exact hempty
    bytes_eq := by
      have := h.bytes_eq
      simp only [ReclaimState.pushCompletion, DetachedRootReclaimUpdate.bytes, length_append,
        length_singleton, Nat.succ_mul] at this ⊢
      omega
    bytes_le := hbudget }

theorem bytes_of_nothingPlanned (hnothing : st.nothingPlanned) : st.logicalBatchBytes = base := by
  rw [h.bytes_eq, DetachedRootReclaimUpdate.bytes, hnothing.1, hnothing.2]
  simp

theorem plan (hunmarked : st.nothingPlanned → ∀ root ∈ candidates, s.marker root = none) :
    ReclaimPlan s candidates maxEntries st.update :=
  { h with
    entries_le := h.processed_eq ▸ h.processed_le
    unmarked hentries hcompleted := hunmarked ⟨hentries, hcompleted⟩
    parents_mem entry hentry := h.seen_mem _ (h.parents_seen entry hentry)
    completed_mem root hroot := h.seen_mem _ (h.completed_seen root hroot) }

end

end ReclaimState.Holds

structure ReclaimedPage (root : InodeId) (st : ReclaimState)
    (page : List (String × InodeId)) (pageEnd : PageEnd) (st' : ReclaimState) :
    Prop where
  seen_eq : st'.seenCandidates = st.seenCandidates
  completed_eq : st'.update.completedRootInodeIds = st.update.completedRootInodeIds
  entries_mono : ∀ entry ∈ st.update.entries, entry ∈ st'.update.entries
  consumed : pageEnd = .consumed → ∀ name child, (name, child) ∈ page →
    ∃ entry ∈ st'.update.entries,
      entry.parentInodeId = root ∧ entry.name = name ∧ entry.inodeId = child
  progress : st'.nothingPlanned → pageEnd = .consumed ∧ page = []

theorem ReclaimedPage.cons {bytes : ℕ}
    {name : String} {child : InodeId} {rest : List (String × InodeId)}
    {pageEnd : PageEnd} (hroot : entry.parentInodeId = root) (hname : entry.name = name)
    (hchild : entry.inodeId = child)
    (h : ReclaimedPage root (st.pushEntry entry bytes) rest pageEnd st') :
    ReclaimedPage root st ((name, child) :: rest) pageEnd st' where
  seen_eq := h.seen_eq
  completed_eq := h.completed_eq
  entries_mono e he := h.entries_mono e (mem_append_left _ he)
  consumed hend name' child' hmem := by
    rcases mem_cons.1 hmem with heq | hmem
    · cases heq
      have hentry : entry ∈ (st.pushEntry entry bytes).update.entries :=
        mem_append_right _ mem_cons_self
      exact ⟨entry, h.entries_mono entry hentry, hroot, hname, hchild⟩
    · exact h.consumed hend name' child' hmem
  progress hnothing := by
    have hentry : entry ∈ (st.pushEntry entry bytes).update.entries :=
      mem_append_right _ mem_cons_self
    have hmem := h.entries_mono entry hentry
    rw [hnothing.1] at hmem
    cases hmem

section Run

variable {marker : DetachedRoot} {mountRoot : InodeId}
  (hfit : hyp → db.Fit)
  (hbudget : maxBatchBytes ≤ maxReclaimDetachedRootBatchBytes)
  (hentries : 0 < maxEntries)

include hfit hbudget hentries

theorem reclaimPage_ensures (hmarker : db.store.marker root = some marker)
    (hmount : db.store.IsMountRoot mountRoot) (page : List (String × InodeId)) :
    ∀ st : ReclaimState, st.Holds db.store base candidates maxEntries maxBatchBytes →
    root ∈ st.seenCandidates →
    (∀ name child, (name, child) ∈ page → db.store.dentry root name = some child) →
    (page.map Prod.fst).Nodup → (∀ entry ∈ st.update.entries, entry.parentInodeId = root →
      entry.name ∉ page.map Prod.fst) →
    (hyp → st.nothingPlanned → ∀ name child rest, page = (name, child) :: rest →
      base + (db.store.reclaimEntry marker root name child).bytes ≤ maxBatchBytes) →
    Ensures (reclaimPage root marker mountRoot maxEntries maxBatchBytes st page) db
      (fun result db' => db' = db ∧
        result.2.Holds db.store base candidates maxEntries maxBatchBytes ∧
        ReclaimedPage root st page result.1 result.2) (Refusal hyp db) := by
  induction page with
  | nil =>
    intro st hst _ _ _ _ _
    refine ensures_pure ⟨rfl, hst, rfl, rfl, fun _ h => h, fun _ _ _ h => ?_, fun _ => ⟨rfl, rfl⟩⟩
    cases h
  | cons head rest ih =>
    intro st hst hseen hpage hnodup hfresh hfits
    obtain ⟨name, child⟩ := head
    have hdentry := hpage name child mem_cons_self
    rw [map_cons, nodup_cons] at hnodup
    unfold reclaimPage
    by_cases hfull : st.processedEntries = maxEntries
    · rw [if_pos hfull]
      refine ensures_pure ⟨rfl, hst, rfl, rfl, fun _ h => h, (fun h => by cases h),
        fun hnothing => ?_⟩
      rw [hst.processed_eq, hnothing.1] at hfull
      simp only [length_nil] at hfull
      omega
    rw [if_neg hfull]
    refine failIf_bind (fun hplanned => .excluded fun hhyp => ?_) fun hnew => ?_
    · obtain ⟨entry, hentry, hid⟩ := mem_map.1 (hst.planned_iff.1 hplanned)
      obtain ⟨_, _, _, hdentry', _⟩ := hst.entries_ok entry hentry
      rw [hid] at hdentry'
      obtain ⟨hparent, hname⟩ := (hfit hhyp).linked.entry_unique hdentry' hdentry
      refine hfresh entry hentry hparent ?_
      rw [hname]
      exact mem_cons_self
    refine reads_bind (prepareDetachedRootEntry_ensures hfit hmarker hmount hdentry) ?_
    rintro _ ⟨rfl, hentry⟩
    have hbytes : hyp → (db.store.reclaimEntry marker root name child).bytes ≤ 296 :=
      fun hhyp => bytes_le ((hfit hhyp).names hdentry)
    refine reads_bind (logicalBytes_ensures hfit fun hhyp => ?_) ?_
    · have := hbytes hhyp
      omega
    rintro _ rfl
    refine reads_bind (checkedAdd_ensures fun hhyp => ?_) ?_
    · have := hbytes hhyp
      have := hst.bytes_le
      unfold maxReclaimDetachedRootBatchBytes at hbudget
      omega
    rintro _ rfl
    by_cases hexceeds : st.logicalBatchBytes +
        (db.store.reclaimEntry marker root name child).bytes > maxBatchBytes
    · rw [if_pos hexceeds]
      refine failIf_bind (fun hnothing => .excluded fun hhyp => ?_)
        fun hplanned => ensures_pure ⟨rfl, hst, rfl, rfl, fun _ h => h,
          (fun h => by cases h), fun h => absurd h hplanned⟩
      have := hfits hhyp hnothing name child rest rfl
      rw [hst.bytes_of_nothingPlanned hnothing] at hexceeds
      omega
    rw [if_neg hexceeds]
    have hpush := hst.pushEntry hentry hseen hnew hfull rfl (not_lt.1 hexceeds)
    refine (ih _ hpush hseen ?_ hnodup.2 ?_ ?_).mono ?_ fun _ _ h => h
    · exact fun name' child' hmem => hpage name' child' (mem_cons_of_mem _ hmem)
    · intro entry hmem hparent
      rcases mem_append.1 hmem with hmem | hmem
      · exact fun h => hfresh entry hmem hparent (mem_cons_of_mem _ h)
      · rw [mem_singleton.1 hmem]
        exact hnodup.1
    · intro _ hnothing
      have hmem := append_eq_nil_iff.1 hnothing.1
      cases hmem.2
    · rintro ⟨pageEnd, st'⟩ db' ⟨rfl, hst', hreclaimed⟩
      exact ⟨rfl, hst', hreclaimed.cons rfl rfl rfl⟩

omit hfit hentries in
theorem reclaimCompletion_ensures (hst : st.Holds db.store base candidates maxEntries maxBatchBytes)
    (hroot : root ∈ st.seenCandidates) (hnew : root ∉ st.update.completedRootInodeIds)
    (hmarker : db.store.marker root = some marker)
    (hempty : ∀ name child, db.store.dentry root name = some child → ∃ entry ∈ st.update.entries,
        entry.parentInodeId = root ∧ entry.name = name ∧ entry.inodeId = child)
    (hfits : hyp → st.nothingPlanned → base + completedRootBytes ≤ maxBatchBytes) :
    Ensures (reclaimCompletion maxBatchBytes st root) db (fun result db' => db' = db ∧
        result.2.Holds db.store base candidates maxEntries maxBatchBytes ∧
        ¬result.2.nothingPlanned ∧ result.2.seenCandidates = st.seenCandidates)
      (Refusal hyp db) := by
  unfold reclaimCompletion
  refine reads_bind completedRootLogicalBytes_ensures ?_
  rintro _ rfl
  refine reads_bind (checkedAdd_ensures fun _ => ?_) ?_
  · have := hst.bytes_le
    unfold maxReclaimDetachedRootBatchBytes at hbudget
    unfold completedRootBytes inodeKeyLen detachedRootKeyLen
    omega
  rintro _ rfl
  by_cases hexceeds : st.logicalBatchBytes + completedRootBytes > maxBatchBytes
  · rw [if_pos hexceeds]
    refine failIf_bind (fun hnothing => .excluded fun hhyp => ?_)
      fun hplanned => ensures_pure ⟨rfl, hst, hplanned, rfl⟩
    have := hfits hhyp hnothing
    rw [hst.bytes_of_nothingPlanned hnothing] at hexceeds
    omega
  · rw [if_neg hexceeds]
    have hpush := hst.pushCompletion hroot hnew hmarker hempty rfl (not_lt.1 hexceeds)
    refine ensures_pure ⟨rfl, hpush, fun hnothing => ?_, rfl⟩
    cases (append_eq_nil_iff.1 hnothing.2).2

theorem reclaimRoot_ensures (hst : st.Holds db.store base candidates maxEntries maxBatchBytes)
    (hseen : root ∈ st.seenCandidates) (hnew : root ∉ st.update.completedRootInodeIds)
    (hfresh : ∀ entry ∈ st.update.entries, entry.parentInodeId ≠ root)
    (hmarker : db.store.marker root = some marker) (hfits : hyp → st.nothingPlanned →
      base + db.store.firstItemBytes marker root ≤ maxBatchBytes) :
    Ensures (reclaimRoot maxEntries maxBatchBytes st root marker) db (fun result db' => db' = db ∧
        result.2.Holds db.store base candidates maxEntries maxBatchBytes ∧
        ¬result.2.nothingPlanned ∧ result.2.seenCandidates = st.seenCandidates)
      (Refusal hyp db) := by
  unfold reclaimRoot
  refine reads_bind (validateDetachedRoot_ensures hfit hmarker) ?_
  intro mountRoot hmount
  unfold listDentriesForReclaim
  generalize hscan : max (maxEntries - st.processedEntries) 1 = scanLimit
  have hlimit : 0 < scanLimit := hscan ▸ lt_of_lt_of_le one_pos (le_max_right _ _)
  refine ensures_bind (failIf_bind (fun hzero => absurd hzero hlimit.ne')
    fun _ => query_bind hfit (ensures_pure ?_))
  unfold firstItemBytes at hfits
  have hpage : ∀ name child, (name, child) ∈ (db.store.dentriesUnder root).take scanLimit →
      db.store.dentry root name = some child := fun name child h =>
    mem_dentriesUnder.1 (mem_of_mem_take h)
  refine reads_bind (reclaimPage_ensures hfit hbudget hentries
    hmarker hmount _ _ hst hseen hpage ?_ ?_ ?_) ?_
  · exact ((take_sublist _ _).map _).nodup (db.store.dentriesUnder_nodup root)
  · exact fun entry hentry hparent => absurd hparent (hfresh entry hentry)
  · intro hhyp hnothing name child tail hcons
    have hbound := hfits hhyp hnothing
    cases hunder : db.store.dentriesUnder root with
    | nil => simp [hunder] at hcons
    | cons =>
      rw [hunder] at hbound
      rw [hunder, take_cons hlimit] at hcons
      cases hcons
      exact hbound
  rintro ⟨pageEnd, st'⟩ ⟨hst', hreclaimed⟩
  simp only at hst' hreclaimed ⊢
  have hall : st'.nothingPlanned → pageEnd = .consumed ∧ db.store.dentriesUnder root = [] := by
    intro hnothing
    refine (hreclaimed.progress hnothing).imp_right fun htake => ?_
    rcases take_eq_nil_iff.1 htake with hzero | hnil
    · exact absurd hzero hlimit.ne'
    · exact hnil
  by_cases hbytes : pageEnd = .byteBudget
  · rw [if_pos hbytes]
    refine ensures_pure ⟨rfl, hst', fun hnothing => ?_, hreclaimed.seen_eq⟩
    rw [hbytes] at hall
    cases (hall hnothing).1
  rw [if_neg hbytes]
  by_cases hend : pageEnd = .consumed ∧
      decide ((db.store.dentriesUnder root).length ≤ scanLimit) = true
  · rw [if_pos hend, ← hreclaimed.seen_eq]
    refine reclaimCompletion_ensures hbudget hst' ?_ ?_ hmarker ?_ ?_
    · rw [hreclaimed.seen_eq]
      exact hseen
    · rw [hreclaimed.completed_eq]
      exact hnew
    · intro name child hdentry
      refine hreclaimed.consumed hend.1 name child ?_
      rw [take_of_length_le (of_decide_eq_true hend.2)]
      exact mem_dentriesUnder.2 hdentry
    · intro hhyp hnothing
      have hbefore : st.nothingPlanned := by
        refine ⟨eq_nil_iff_forall_not_mem.2 fun entry hentry => ?_, ?_⟩
        · have := hreclaimed.entries_mono entry hentry
          rw [hnothing.1] at this
          cases this
        · exact hreclaimed.completed_eq.symm.trans hnothing.2
      have hbound := hfits hhyp hbefore
      rw [(hall hnothing).2] at hbound
      exact hbound
  · rw [if_neg hend]
    refine ensures_pure ⟨rfl, hst', fun hnothing => hend ?_, hreclaimed.seen_eq⟩
    obtain ⟨hconsumed, hnil⟩ := hall hnothing
    exact ⟨hconsumed, by simp [hnil]⟩

theorem reclaimCandidates_ensures (rest : List InodeId) : ∀ st : ReclaimState,
    st.Holds db.store base candidates maxEntries maxBatchBytes →
    (∀ root ∈ rest, root ∈ candidates) →
    (st.nothingPlanned → ∀ root ∈ st.seenCandidates, db.store.marker root = none) →
    (hyp → st.nothingPlanned → base + db.store.firstReclaimBytes rest ≤ maxBatchBytes) →
    Ensures (reclaimCandidates maxEntries maxBatchBytes st rest) db (fun st' db' => db' = db ∧
        st'.Holds db.store base candidates maxEntries maxBatchBytes ∧
        (st'.nothingPlanned → ∀ root ∈ st.seenCandidates ++ rest, db.store.marker root = none))
      (Refusal hyp db) := by
  induction rest with
  | nil =>
    intro st hst _ hunmarked _
    exact ensures_pure ⟨rfl, hst, by simpa using hunmarked⟩
  | cons root rest ih =>
    intro st hst hmem hunmarked hfits
    have hrest : ∀ root ∈ rest, root ∈ candidates := fun c hc => hmem c (mem_cons_of_mem _ hc)
    unfold reclaimCandidates
    by_cases hseen : root ∈ st.seenCandidates
    · rw [if_pos hseen]
      refine (ih st hst hrest hunmarked fun hhyp hnothing => ?_).mono ?_ fun _ _ h => h
      · have := hfits hhyp hnothing
        simpa [firstReclaimBytes, hunmarked hnothing root hseen] using this
      · rintro st' db' ⟨rfl, hst', hplanned⟩
        refine ⟨rfl, hst', fun hnothing c hc => hplanned hnothing c ?_⟩
        simp only [mem_append, mem_cons] at hc ⊢
        rcases hc with hc | rfl | hc
        · exact .inl hc
        · exact .inl hseen
        · exact .inr hc
    rw [if_neg hseen]
    have hsee := hst.see (hmem root mem_cons_self)
    refine reads_bind (getDetachedRoot_ensures hfit) ?_
    rintro _ rfl
    have hcover : ∀ {c}, c ∈ st.seenCandidates ++ root :: rest →
        c ∈ (root :: st.seenCandidates) ++ rest := by
      intro c hc
      simp only [mem_append, mem_cons] at hc ⊢
      tauto
    cases hmarker : db.store.marker root with
    | none =>
      refine (ih _ hsee hrest (fun hnothing c hc => ?_)
        fun hhyp hnothing => ?_).mono ?_ fun _ _ h => h
      · rcases mem_cons.1 hc with rfl | hc
        · exact hmarker
        · exact hunmarked hnothing c hc
      · have := hfits hhyp hnothing
        simpa [firstReclaimBytes, hmarker] using this
      · rintro st' db' ⟨rfl, hst', hplanned⟩
        exact ⟨rfl, hst', fun hnothing c hc => hplanned hnothing c (hcover hc)⟩
    | some =>
      refine reads_bind (reclaimRoot_ensures hfit hbudget hentries
        hsee mem_cons_self ?_ ?_ hmarker fun hhyp hnothing => ?_) ?_
      · exact fun h => hseen (hst.completed_seen root h)
      · intro entry hentry hparent
        have := hst.parents_seen entry hentry
        rw [hparent] at this
        exact hseen this
      · have := hfits hhyp hnothing
        simpa [firstReclaimBytes, hmarker] using this
      rintro ⟨goOn, st'⟩ ⟨hst', hplanned, hseen'⟩
      cases goOn with
      | false => exact ensures_pure ⟨rfl, hst', fun h => absurd h hplanned⟩
      | true =>
        refine (ih st' hst' hrest (fun h => absurd h hplanned)
          fun _ h => absurd h hplanned).mono ?_ fun _ _ h => h
        rintro st'' db' ⟨rfl, hst'', hall⟩
        refine ⟨rfl, hst'', fun hnothing c hc => hall hnothing c ?_⟩
        rw [hseen']
        exact hcover hc

end Run

end Loop

/-! ## The command -/

theorem reclaimDetachedRootsAtomic_ensures {update : DetachedRootReclaimUpdate}
    {ok : Unit → Db → Prop} (hfit : hyp → db.Fit) (hok : ok () (db.commit update.ops raftState)) :
    Ensures (reclaimDetachedRootsAtomic update raftState) db ok (Refusal hyp db) := by
  unfold reclaimDetachedRootsAtomic
  refine reads_bind (reclaimEntriesBatch_ensures hfit update.entries []) ?_
  rintro _ rfl
  exact commitAuthorityBatch_ensures hfit hok

theorem expectU32_bind {α : Type} {value : ℕ} {message : String} {f : ℕ → StorageM α}
    {ok : α → Db → Prop} {err : Abort → Db → Prop} (hvalue : value < 2 ^ 32)
    (hok : Ensures (f value) db ok err) : Ensures (expectU32 value message >>= f) db ok err := by
  unfold expectU32
  rw [if_pos hvalue]
  exact okOr_bind_of_some rfl hok

variable {candidates : List InodeId} {maxEntries maxBatchBytes : ℕ}

theorem validateDetachedRootReclaimCommand_ok
    (h : validateDetachedRootReclaimCommand candidates maxEntries maxBatchBytes = .ok ()) :
    candidates.length ≤ maxReclaimDetachedRootCandidates ∧ 0 < maxEntries ∧
      maxEntries ≤ maxReclaimDetachedRootEntries ∧
      maxBatchBytes ≤ maxReclaimDetachedRootBatchBytes := by
  unfold validateDetachedRootReclaimCommand at h
  split at h
  next => cases h
  next hcandidates =>
    split at h
    next => cases h
    next hentries =>
      split at h
      next => cases h
      next hbytes =>
        simp only [not_or, not_not, not_lt] at hcandidates hentries hbytes
        exact ⟨hcandidates.2.1, Nat.pos_of_ne_zero hentries.1, hentries.2, hbytes.2⟩

theorem applyReclaimDetachedRoots_plans (hfit : hyp → db.Fit)
    (hvalid : hyp → validateDetachedRootReclaimCommand candidates maxEntries maxBatchBytes = .ok ())
    (hfits : hyp → ¬(Command.reclaimDetachedRoots candidates maxEntries
      maxBatchBytes).ExceedsReclaimBudget db.env raftState db.store) :
    Ensures (applyReclaimDetachedRoots candidates maxEntries maxBatchBytes raftState) db
      (fun result db' => ∃ update, ReclaimPlan db.store candidates maxEntries update ∧
        db' = db.commit update.ops raftState ∧ result.Counts update maxBatchBytes ∧
        result.logicalBatchBytes = db.env.applyStateBytes raftState + update.bytes)
      (Refusal hyp db) := by
  have hfits : hyp → db.env.applyStateBytes raftState +
      db.store.firstReclaimBytes candidates ≤ maxBatchBytes := fun hhyp =>
    not_lt.1 (hfits hhyp)
  unfold applyReclaimDetachedRoots
  refine ofResult_bind (fun error herror => Refusal.excluded fun hhyp => ?_) fun _ hcommand => ?_
  · rw [hvalid hhyp] at herror
    cases herror
  obtain ⟨hcandidates, hentries, hmaxEntries, hbudget⟩ :=
    validateDetachedRootReclaimCommand_ok hcommand
  unfold maxReclaimDetachedRootCandidates at hcandidates
  unfold maxReclaimDetachedRootEntries at hmaxEntries
  have hsmall : maxBatchBytes < 2 ^ 32 := by
    unfold maxReclaimDetachedRootBatchBytes at hbudget
    omega
  refine reads_bind (logicalBatchBytes_ensures hfit fun hhyp => ?_) ?_
  · have := hfits hhyp
    simp only [DetachedRootReclaimUpdate.bytes, List.map_nil, List.sum_nil, List.length_nil,
      Nat.zero_mul]
    omega
  rintro _ rfl
  have hempty : (DetachedRootReclaimUpdate.mk [] []).bytes = 0 := rfl
  rw [hempty, Nat.add_zero]
  refine failIf_bind (fun hexceeds => Refusal.excluded fun hhyp => ?_) fun hbase => ?_
  · have := hfits hhyp
    omega
  refine reads_bind (reclaimCandidates_ensures hfit hbudget hentries
    candidates _ (.start (not_lt.1 hbase)) (fun _ h => h) (fun _ _ h => by cases h)
    fun hhyp _ => hfits hhyp) ?_
  rintro st ⟨hst, hunmarked⟩
  refine reads_bind (logicalBatchBytes_ensures hfit fun _ => ?_) ?_
  · have := hst.bytes_le
    have := hst.bytes_eq
    omega
  rintro _ rfl
  refine failIf_bind (fun hne => absurd hst.bytes_eq.symm hne) fun _ => ?_
  refine ensures_bind (reclaimDetachedRootsAtomic_ensures hfit ?_)
  have hcompleted : st.update.completedRootInodeIds.length ≤ candidates.length :=
    (List.subperm_of_subset hst.completed_nodup fun root hroot =>
      hst.seen_mem root (hst.completed_seen root hroot)).length_le
  have hlength := hst.processed_eq
  have hprocessed := hst.processed_le
  have hcreated : st.createdRoots ≤ st.update.entries.length :=
    hst.created_eq.trans_le List.countP_le_length
  have hbytes := hst.bytes_le
  refine expectU32_bind (by omega) (expectU32_bind (by omega) (expectU32_bind (by omega)
    (expectU32_bind (by omega) (ensures_pure
      ⟨_, hst.plan ?_, rfl, ⟨hst.processed_eq, rfl, hst.created_eq, hst.bytes_le⟩,
        hst.bytes_eq⟩))))
  simpa using hunmarked

theorem applyReclaimDetachedRoots_ensures (hfit : hyp → db.Fit)
    (hvalid : hyp → validateDetachedRootReclaimCommand candidates maxEntries maxBatchBytes = .ok ())
    (hfits : hyp → ¬(Command.reclaimDetachedRoots candidates maxEntries
      maxBatchBytes).ExceedsReclaimBudget db.env raftState db.store) :
    Ensures (applyReclaimDetachedRoots candidates maxEntries maxBatchBytes raftState) db
      (fun result => Commits db
        (.reclaimDetachedRoots candidates maxEntries maxBatchBytes) raftState
        (.detachedRootsReclaimed result)) (Refusal hyp db) := by
  refine (applyReclaimDetachedRoots_plans hfit hvalid hfits).mono ?_ fun _ _ h => h
  rintro result _ ⟨update, hplan, rfl, hcounts, _⟩
  exact ⟨update.ops, .reclaimed hplan hcounts, rfl⟩

end Beryl
