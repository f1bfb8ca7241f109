import Beryl.Soundness

/-!
# Which applies end in a fatal error

A fatal error stops every replica at the same log entry.  On healthy storage a
leader-built command meets one in two ways only: a rename whose destination parent
was removed after the command was built, and a reclamation whose byte budget does
not hold the apply state together with its first item.
-/

namespace Beryl

open History Transaction LeaderBuilt Store DetachedRootReclaimUpdate

/-! ## Failures that are never rejections -/

def Abort.Fatal (abort : Abort) : Prop :=
  ∀ error, abort = .failed error → ¬error.Rejectable

def NeverRejects {α : Type} (x : StorageM α) : Prop :=
  ∀ db, Ensures x db (fun _ _ => True) fun abort _ => abort.Fatal

theorem fatal_internal (message : String) : (Abort.failed (.internal message)).Fatal := by
  rintro error ⟨⟩ ⟨rejection, hrejection⟩
  cases hrejection

theorem fatal_panicked (message : String) : (Abort.panicked message).Fatal := nofun

namespace NeverRejects

variable {α β : Type}

theorem returns (value : α) : NeverRejects (pure value : StorageM α) := fun _ => trivial

theorem bind {x : StorageM β} {f : β → StorageM α} (hx : NeverRejects x)
    (hf : ∀ value, NeverRejects (f value)) : NeverRejects (x >>= f) :=
  fun db => (hx db).bind (fun _ _ h => h) fun value db' _ => hf value db'

theorem query {call : StorageCall} {read : Store → α} : NeverRejects (query call read) := by
  intro db
  unfold Ensures Beryl.query
  cases db.env.fault call with
  | none => trivial
  | some message => exact fatal_internal message

theorem rejectIf {condition : Prop} [Decidable condition] {message : String} :
    NeverRejects (rejectIf condition (.internal message)) :=
  fun _ => ensures_failIf (fun _ => fatal_internal message) fun _ => trivial

theorem okOrElse {value : Option α} {message : String} :
    NeverRejects (okOrElse value (.internal message)) :=
  fun _ => ensures_okOr (fun _ => fatal_internal message) fun _ _ => trivial

theorem expectU32 {value : ℕ} {message : String} : NeverRejects (expectU32 value message) :=
  fun _ => ensures_okOr (fun _ => fatal_panicked message) fun _ _ => trivial

theorem getDetachedRoot (i : InodeId) : NeverRejects (getDetachedRoot i) := by
  unfold Beryl.getDetachedRoot
  refine query.bind fun marker => ?_
  cases marker with
  | none => exact returns none
  | some => exact rejectIf.bind fun _ => returns _

theorem validateDetachedRoot (i : InodeId) (root : DetachedRoot) :
    NeverRejects (validateDetachedRoot i root) :=
  query.bind fun _ => okOrElse.bind fun _ => rejectIf.bind fun _ => rejectIf.bind fun _ =>
    rejectIf.bind fun _ => query.bind fun _ => okOrElse.bind fun _ => rejectIf.bind fun _ =>
      rejectIf.bind fun _ => returns _

theorem listDentriesForReclaim {i : InodeId} {limit : ℕ} (h : limit ≠ 0) :
    NeverRejects (listDentriesForReclaim i limit) := by
  refine bind (fun _ => ensures_failIf (fun hzero => absurd hzero h) fun _ => trivial)
    fun _ => query.bind fun _ => returns _

theorem prepareDetachedRootEntry (p : InodeId) (name : String) (c : InodeId)
    (root : DetachedRoot) (mountRoot : InodeId) :
    NeverRejects (prepareDetachedRootEntry p name c root mountRoot) := by
  refine rejectIf.bind fun _ => rejectIf.bind fun _ => (getDetachedRoot c).bind fun _ =>
    rejectIf.bind fun _ => query.bind fun _ => okOrElse.bind fun inode => rejectIf.bind
      fun _ => rejectIf.bind fun _ => ?_
  cases inode.kind with
  | dir => exact rejectIf.bind fun _ => returns _
  | file => exact returns _

theorem logicalBytes (entry : DetachedRootReclaimEntry) : NeverRejects entry.logicalBytes := by
  unfold DetachedRootReclaimEntry.logicalBytes
  cases entry.childDetachedRoot with
  | none => exact okOrElse
  | some => exact query.bind fun _ => okOrElse.bind fun _ => okOrElse

theorem entriesLogicalBytes (entries : List DetachedRootReclaimEntry) :
    ∀ bytes, NeverRejects (entriesLogicalBytes bytes entries) := by
  induction entries with
  | nil => exact fun bytes => returns bytes
  | cons entry rest ih =>
    exact fun bytes => (logicalBytes entry).bind fun _ => okOrElse.bind fun _ => ih _

theorem completedRootLogicalBytes : NeverRejects completedRootLogicalBytes := by
  unfold Beryl.completedRootLogicalBytes
  exact okOrElse

theorem completionsLogicalBytes (roots : List InodeId) :
    ∀ bytes, NeverRejects (completionsLogicalBytes bytes roots) := by
  induction roots with
  | nil => exact fun bytes => returns bytes
  | cons root rest ih =>
    exact fun bytes => completedRootLogicalBytes.bind fun _ => okOrElse.bind fun _ => ih _

theorem logicalBatchBytes (update : DetachedRootReclaimUpdate) (raftState : AppMetadataRaftState) :
    NeverRejects (update.logicalBatchBytes raftState) :=
  query.bind fun _ => bind (fun _ => trivial) fun _ => okOrElse.bind fun _ =>
    (entriesLogicalBytes _ _).bind fun _ => completionsLogicalBytes _ _

theorem reclaimEntriesBatch (entries : List DetachedRootReclaimEntry) :
    ∀ batch, NeverRejects (reclaimEntriesBatch batch entries) := by
  induction entries with
  | nil => exact fun batch => returns batch
  | cons entry rest ih =>
    intro batch
    unfold Beryl.reclaimEntriesBatch
    cases entry.childDetachedRoot with
    | none => exact ih _
    | some => exact query.bind fun _ => ih _

theorem reclaimDetachedRootsAtomic (update : DetachedRootReclaimUpdate)
    (raftState : AppMetadataRaftState) :
    NeverRejects (reclaimDetachedRootsAtomic update raftState) :=
  (reclaimEntriesBatch _ _).bind fun _ => query.bind fun _ => query.bind fun _ =>
    fun _ => trivial

theorem reclaimPage (root : InodeId) (marker : DetachedRoot) (mountRoot : InodeId)
    (maxEntries maxBatchBytes : ℕ) (page : List (String × InodeId)) : ∀ st, NeverRejects
      (reclaimPage root marker mountRoot maxEntries maxBatchBytes st page) := by
  induction page with
  | nil => exact fun st => returns _
  | cons entry rest ih =>
    intro st
    unfold Beryl.reclaimPage
    split
    · exact returns _
    · refine rejectIf.bind fun _ => (prepareDetachedRootEntry _ _ _ _ _).bind fun _ =>
        (logicalBytes _).bind fun _ => okOrElse.bind fun _ => ?_
      split
      · exact rejectIf.bind fun _ => returns _
      · exact ih _

theorem reclaimCompletion (maxBatchBytes : ℕ) (st : ReclaimState) (root : InodeId) :
    NeverRejects (reclaimCompletion maxBatchBytes st root) := by
  refine completedRootLogicalBytes.bind fun _ => okOrElse.bind fun _ => ?_
  split
  · exact rejectIf.bind fun _ => returns _
  · exact returns _

theorem reclaimRoot (maxEntries maxBatchBytes : ℕ) (st : ReclaimState) (root : InodeId)
    (marker : DetachedRoot) :
    NeverRejects (reclaimRoot maxEntries maxBatchBytes st root marker) := by
  refine (validateDetachedRoot _ _).bind fun _ =>
    (listDentriesForReclaim (Nat.ne_of_gt (Nat.lt_of_lt_of_le one_pos
      (le_max_right _ _)))).bind fun _ => (reclaimPage _ _ _ _ _ _ _).bind fun
        (pageEnd, st) => ?_
  simp only
  split
  · exact returns _
  · split
    · exact reclaimCompletion _ _ _
    · exact returns _

theorem reclaimCandidates (maxEntries maxBatchBytes : ℕ) (candidates : List InodeId) :
    ∀ st, NeverRejects (reclaimCandidates maxEntries maxBatchBytes st candidates) := by
  induction candidates with
  | nil => exact fun st => returns st
  | cons root rest ih =>
    intro st
    unfold Beryl.reclaimCandidates
    split
    · exact ih _
    · refine (getDetachedRoot root).bind fun marker => ?_
      cases marker with
      | none => exact ih _
      | some =>
        refine (reclaimRoot _ _ _ _ _).bind fun result => ?_
        rcases result with ⟨goOn, st⟩
        simp only
        split
        · exact ih _
        · exact returns _

theorem applyReclaimDetachedRoots (candidates : List InodeId)
    (maxEntries maxBatchBytes : ℕ) (raftState : AppMetadataRaftState) : NeverRejects
      (applyReclaimDetachedRoots candidates maxEntries maxBatchBytes raftState) := by
  refine bind ?_ fun _ => (logicalBatchBytes _ _).bind fun _ => rejectIf.bind fun _ =>
    (reclaimCandidates _ _ _ _).bind fun _ => (logicalBatchBytes _ _).bind fun _ =>
      rejectIf.bind fun _ => (reclaimDetachedRootsAtomic _ _).bind fun _ =>
        expectU32.bind fun _ => expectU32.bind fun _ => expectU32.bind fun _ =>
          expectU32.bind fun _ => returns _
  intro db
  refine ofResult_ensures (fun error herror => ?_) fun _ _ => trivial
  unfold validateDetachedRootReclaimCommand at herror
  split at herror
  · cases herror
    exact fatal_internal _
  · split at herror
    · cases herror
      exact fatal_internal _
    · split at herror
      · cases herror
        exact fatal_internal _
      · cases herror

end NeverRejects

/-! ## A reclamation that returns is within its budget -/

section Budget

variable {db db' : Db} {st : ReclaimState} {root : InodeId} {marker : DetachedRoot}
  {maxEntries maxBatchBytes : ℕ}

theorem reclaimPage_fits {mountRoot child : InodeId} {name : String}
    {rest : List (String × InodeId)} {result : PageEnd × ReclaimState}
    (hplanned : st.nothingPlanned) (hroom : st.processedEntries ≠ maxEntries)
    (hmarker : db.store.marker root = some marker) (hmount : db.store.IsMountRoot mountRoot)
    (hdentry : db.store.dentry root name = some child)
    (h : reclaimPage root marker mountRoot maxEntries maxBatchBytes st
      ((name, child) :: rest) db = (.ok result, db')) :
    st.logicalBatchBytes + (db.store.reclaimEntry marker root name child).bytes ≤
      maxBatchBytes := by
  unfold reclaimPage at h
  rw [if_neg hroom] at h
  obtain ⟨_, h⟩ := failIf_bind_eq_ok h
  obtain ⟨_, ⟨rfl, _⟩, h⟩ := reads_eq_ok (prepareDetachedRootEntry_ensures False.elim
    hmarker hmount hdentry) h
  obtain ⟨_, rfl, h⟩ := reads_eq_ok (logicalBytes_ensures False.elim False.elim) h
  obtain ⟨_, rfl, h⟩ := reads_eq_ok (checkedAdd_ensures False.elim) h
  by_contra hover
  rw [if_pos (not_le.1 hover)] at h
  exact (failIf_bind_eq_ok h).1 hplanned

theorem reclaimCompletion_fits {result : Bool × ReclaimState} (hplanned : st.nothingPlanned)
    (h : reclaimCompletion maxBatchBytes st root db = (.ok result, db')) :
    st.logicalBatchBytes + completedRootBytes ≤ maxBatchBytes := by
  unfold reclaimCompletion at h
  obtain ⟨_, rfl, h⟩ := reads_eq_ok (@completedRootLogicalBytes_ensures False db) h
  obtain ⟨_, rfl, h⟩ := reads_eq_ok (checkedAdd_ensures False.elim) h
  by_contra hover
  rw [if_pos (not_le.1 hover)] at h
  exact (failIf_bind_eq_ok h).1 hplanned

theorem listDentriesForReclaim_reads (root : InodeId) (limit : ℕ) :
    Ensures (listDentriesForReclaim root limit) db
      (fun page db' => db' = db ∧ page = ((db.store.dentriesUnder root).take limit,
        decide ((db.store.dentriesUnder root).length ≤ limit))) (Refusal False db) :=
  failIf_bind (fun _ => .excluded id) fun _ => query_bind False.elim
    (ensures_pure ⟨rfl, rfl⟩)

theorem reclaimRoot_fits {result : Bool × ReclaimState} (hplanned : st.nothingPlanned)
    (hroom : st.processedEntries ≠ maxEntries) (hmarker : db.store.marker root = some marker)
    (h : reclaimRoot maxEntries maxBatchBytes st root marker db = (.ok result, db')) :
    st.logicalBatchBytes + db.store.firstItemBytes marker root ≤ maxBatchBytes := by
  unfold reclaimRoot at h
  obtain ⟨mountRoot, hmount, h⟩ := reads_eq_ok (validateDetachedRoot_ensures False.elim hmarker) h
  obtain ⟨_, rfl, h⟩ := reads_eq_ok (listDentriesForReclaim_reads _ _) h
  obtain ⟨⟨pageEnd, st'⟩, _, hloop, h⟩ := bind_eq_ok h
  have hlimit : 0 < max (maxEntries - st.processedEntries) 1 :=
    lt_of_lt_of_le one_pos (le_max_right _ _)
  unfold firstItemBytes
  cases hunder : db.store.dentriesUnder root with
  | nil =>
    rw [hunder, List.take_nil] at hloop
    cases hloop
    rw [hunder] at h
    exact reclaimCompletion_fits hplanned h
  | cons entry =>
    obtain ⟨name, child⟩ := entry
    rw [hunder, List.take_cons hlimit] at hloop
    have hdentry : db.store.dentry root name = some child := by
      refine mem_dentriesUnder.1 ?_
      rw [hunder]
      exact List.mem_cons_self
    exact reclaimPage_fits hplanned hroom hmarker hmount hdentry hloop

theorem reclaimCandidates_fits (hentries : 0 < maxEntries) (candidates : List InodeId) :
    ∀ st : ReclaimState, st.nothingPlanned → st.processedEntries = 0 →
      (∀ seen ∈ st.seenCandidates, db.store.marker seen = none) →
      st.logicalBatchBytes ≤ maxBatchBytes → ∀ {result db'},
      reclaimCandidates maxEntries maxBatchBytes st candidates db = (.ok result, db') →
      st.logicalBatchBytes + db.store.firstReclaimBytes candidates ≤ maxBatchBytes := by
  induction candidates with
  | nil => exact fun _ _ _ _ hbytes _ _ _ => hbytes
  | cons root rest ih =>
    intro st hplanned hprocessed hseen hbytes result db' h
    unfold reclaimCandidates at h
    unfold firstReclaimBytes
    split at h
    next hmem =>
      rw [hseen root hmem]
      exact ih st hplanned hprocessed hseen hbytes h
    next =>
      obtain ⟨_, rfl, h⟩ := reads_eq_ok (getDetachedRoot_ensures False.elim) h
      cases hmarker : db.store.marker root with
      | none =>
        rw [hmarker] at h
        refine ih { st with seenCandidates := root :: st.seenCandidates } hplanned
          hprocessed ?_ hbytes h
        intro seen hmem
        rcases List.mem_cons.1 hmem with rfl | hmem
        · exact hmarker
        · exact hseen seen hmem
      | some =>
        rw [hmarker] at h
        obtain ⟨_, _, hroot, _⟩ := bind_eq_ok h
        have hroom : 0 ≠ maxEntries := hentries.ne
        rw [← hprocessed] at hroom
        have hfits := fun hnone hrest => reclaimRoot_fits hnone hrest hmarker hroot
        exact hfits hplanned hroom

theorem applyReclaimDetachedRoots_fits {candidates : List InodeId}
    {raftState : AppMetadataRaftState} {result : DetachedRootReclaimResult}
    (h : applyReclaimDetachedRoots candidates maxEntries maxBatchBytes raftState db =
      (.ok result, db')) : ¬(Command.reclaimDetachedRoots candidates maxEntries
      maxBatchBytes).ExceedsReclaimBudget db.env raftState db.store := by
  have hvalidate : Ensures
      (ofResult (validateDetachedRootReclaimCommand candidates maxEntries maxBatchBytes)) db
      (fun value db' => db' = db ∧
        validateDetachedRootReclaimCommand candidates maxEntries maxBatchBytes = .ok value)
      (fun _ _ => True) :=
    ofResult_ensures (fun _ _ => trivial) fun _ hvalid => ⟨rfl, hvalid⟩
  unfold applyReclaimDetachedRoots at h
  obtain ⟨_, hvalid, h⟩ := reads_eq_ok hvalidate h
  obtain ⟨_, hentries, _, _⟩ := validateDetachedRootReclaimCommand_ok hvalid
  obtain ⟨_, rfl, h⟩ := reads_eq_ok (logicalBatchBytes_ensures False.elim False.elim) h
  obtain ⟨hbase, h⟩ := failIf_bind_eq_ok h
  obtain ⟨_, _, hloop, _⟩ := bind_eq_ok h
  have hfits := reclaimCandidates_fits hentries candidates _ ⟨rfl, rfl⟩ rfl
    (fun seen hseen => absurd hseen List.not_mem_nil) (not_lt.1 hbase) hloop
  have hempty : (mk [] []).bytes = 0 := by
    simp [bytes]
  rw [hempty, Nat.add_zero] at hfits
  exact not_lt.2 hfits

end Budget

/-! ## A rename into a removed parent -/

theorem applyRename_removed {db : Db} (raftState : AppMetadataRaftState)
    {p q x : InodeId} {name name' : String} {expectedDst : Option InodeId}
    {lease : Option LeaseEpoch} {flags : UInt32} {t : ℕ} (hhealthy : db.env.Healthy)
    (hlinked : Linked db.store) (h : (Command.rename t p name x q name' expectedDst lease
      flags).RenamesIntoRemovedParent db.store) :
    applyRename p name x q name' expectedDst lease flags t raftState db =
      (.error (.failed (.internal "Destination parent disappeared")), db) := by
  obtain ⟨hsrc, rfl, hdst, hremoved⟩ := h
  obtain ⟨srcParent, hsrcParent, _⟩ := hlinked.parent_dir hsrc
  obtain ⟨src, hinode⟩ := hlinked.child_exists hsrc
  have hne : p ≠ q := by
    rintro rfl
    rw [hremoved] at hsrcParent
    cases hsrcParent
  simp [applyRename, prepareRename, prepareRenameParents, getDentry, getInode,
    query_healthy hhealthy, bind, hsrc, hdst, hinode, hsrcParent, hremoved, hne,
    okOr, failIf, fail, pure]

/-! ## The two ways to a fatal error -/

theorem applyCommand_of_committed {db db' : Db} {raftState : AppMetadataRaftState}
    {command : Command} {committed : CommittedApply}
    (h : applyCommitted command raftState db = (.ok committed, db')) :
    (∃ success after, applyCommand raftState command db = (.ok success, after)) ∨
    ∃ error after, applyCommand raftState command db = (.error (.failed error), after) ∧
      error.Rejectable := by
  unfold applyCommitted at h
  obtain ⟨outcome, after, hattempt, h⟩ := bind_eq_ok h
  rcases hrun : applyCommand raftState command db with ⟨abort | success, final⟩
  · simp only [attempt, hrun] at hattempt
    cases hattempt
    cases abort with
    | panicked => cases h
    | failed error =>
      refine .inr ⟨error, _, rfl, ?_⟩
      cases hrejection : ApplyRejection.fromMetadataError error with
      | ok rejection => exact ⟨rejection, hrejection⟩
      | error =>
        simp only [hrejection] at h
        cases h
  · exact .inl ⟨success, final, rfl⟩

def Command.FitsAllocator (s : Store) : Command → Prop
  | .createDirectory _ _ components _ _ => s.AllocatorRoom components.length
  | .createFile _ _ _ _ _ _ _ _ _ _ _ => s.AllocatorRoom 1
  | _ => True

section Runs

variable {t : ℕ} {group : GroupName} {past : Past} {s : Store} {command : Command}

theorem Store.NamesFile.onlyFileAt {u : Store} {i : InodeId}
    (hrun : Run Applies FromLeader (bootstrapped t group) past s)
    (hu : u ∈ visited past s) (h : u.NamesFile i) : s.OnlyFileAt i := by
  intro inode hinode
  obtain ⟨earlier, hearlier⟩ := Run.of_mem_visited hrun hu
  have hevolves := evolves_of_run hrun (.bootstrapped t group) hu
  have hreplay : ReplaySound u := replay_of_run hearlier
  rcases h with ⟨old, file, hold, hkind⟩ | ⟨operationId, hindex⟩
  · have hkeyed := keyed_of_run hearlier (.bootstrapped t group)
    obtain ⟨file', hkind', _⟩ := (hevolves.version hkeyed hold hinode).of_file hkind
    exact ⟨file', hkind'⟩
  · obtain ⟨record, hrecord, rfl⟩ := hreplay.index_record hindex
    obtain ⟨file, hkind, _⟩ := hreplay.layout_evolves hevolves hrecord hinode
    exact ⟨file, hkind⟩

theorem Command.suits_of_leader (hrun : Run Applies FromLeader (bootstrapped t group) past s)
    (hbuilt : ∃ u ∈ visited past s, LeaderBuilt u command)
    (hroom : command.FitsAllocator s) : command.Suits s := by
  obtain ⟨u, hu, hleader⟩ := hbuilt
  obtain ⟨earlier, hearlier⟩ := Run.of_mem_visited hrun hu
  have hcarried := hleader.builtIn (mounts_of_run hearlier)
  cases command with
  | createDirectory | createFile => exact hroom
  | acquireWriteLease | allocateBlock | endWriteLease | publishFile | commitFile =>
    exact Store.NamesFile.onlyFileAt hrun hu hcarried
  | reclaimDetachedRoots => exact hcarried
  | _ => trivial

end Runs

/-- On healthy storage a leader-built command ends in a committed apply exactly if
it is no rename into a removed parent and no reclamation beyond its budget. -/
theorem committed_unless_removed_or_over_budget {t : ℕ} {group : GroupName} {past : Past}
    {db : Db} {command : Command} (raftState : AppMetadataRaftState)
    (hrun : Run Applies FromLeader (Store.bootstrapped t group) past db.store)
    (hbuilt : ∃ u ∈ visited past db.store, LeaderBuilt u command)
    (hhealthy : db.env.Healthy) (hroom : command.FitsAllocator db.store) :
    (∃ committed db', applyCommitted command raftState db = (.ok committed, db')) ↔
      ¬command.RenamesIntoRemovedParent db.store ∧
        ¬command.ExceedsReclaimBudget db.env raftState db.store := by
  have hsound := sound_of_leaderRun hrun
  constructor
  · rintro ⟨committed, db', hcommitted⟩
    have hcommand := applyCommand_of_committed hcommitted
    refine ⟨fun hremoved => ?_, fun hover => ?_⟩
    · cases command with
      | rename =>
        have hfails := applyRename_removed raftState hhealthy hsound.linked hremoved
        simp only [applyCommand, bind, hfails] at hcommand
        rcases hcommand with ⟨_, _, h⟩ | ⟨error, _, h, hrejectable⟩
        · cases h
        · cases h
          exact fatal_internal _ _ rfl hrejectable
      | _ => exact hremoved
    · cases command with
      | reclaimDetachedRoots candidates maxEntries maxBatchBytes =>
        rcases hcommand with ⟨_, _, h⟩ | ⟨error, after, h, hrejectable⟩
        · obtain ⟨_, _, hreclaim, _⟩ := bind_eq_ok h
          exact applyReclaimDetachedRoots_fits hreclaim hover
        · have hnever := (NeverRejects.applyReclaimDetachedRoots candidates maxEntries
            maxBatchBytes raftState).bind fun result =>
              .returns (ApplySuccess.detachedRootsReclaimed result)
          exact (hnever db).of_error h error rfl hrejectable
      | _ => exact hover
  · rintro ⟨hparent, hbudget⟩
    have hsuits := Command.suits_of_leader hrun hbuilt hroom
    have hensures := applyCommitted_ensures db raftState command
    rcases hresult : applyCommitted command raftState db with ⟨failure | committed, db'⟩
    · obtain ⟨_, _, hnotReady⟩ := hensures.of_error hresult
      exact absurd ⟨hhealthy, hsound, hsuits, hparent, hbudget⟩ hnotReady
    · exact ⟨committed, db', rfl⟩

/-! ## Two late renames -/

def twoDirectoriesLog : List Command :=
  [.createDirectory 3 1 ["b"] .new false, .createDirectory 2 2 ["x"] .new false,
    .createDirectory 1 1 ["a"] .new false]

def renameAcross : Command := .rename 5 2 "x" 3 4 "y" none none 0

theorem twoDirectories_run :
    let run := healthyRun (bootstrapped 0 rootGroup) twoDirectoriesLog
    Run Applies FromLeader (bootstrapped 0 rootGroup) run.1 run.2 ∧
      LeaderBuilt run.2 renameAcross := by
  refine ⟨healthyRun_next (healthyRun_next (healthyRun_next .start ?_) ?_) ?_, ?_⟩
  · exact ⟨_, self_mem_visited, @createDirectory _ "/a" false 1 _ rfl⟩
  · exact ⟨_, self_mem_visited, @createDirectory _ "/a/x" false 2 _ rfl⟩
  · exact ⟨_, self_mem_visited, @createDirectory _ "/b" false 3 _ rfl⟩
  · exact @rename _ "/a/x" "/b/y" 0 5 _ rfl

theorem committed_unless_removed_or_over_budget_renameAcross :
    let run := healthyRun (bootstrapped 0 rootGroup) twoDirectoriesLog
    ∃ committed db', applyCommitted renameAcross .initial (.healthy run.2) =
      (.ok committed, db') := by
  intro run
  obtain ⟨hrun, hbuilt⟩ := twoDirectories_run
  have hiff := @committed_unless_removed_or_over_budget 0 rootGroup run.1 (.healthy run.2)
    renameAcross .initial hrun ⟨run.2, self_mem_visited, hbuilt⟩ (fun _ => rfl) trivial
  exact hiff.2 ⟨by decide, id⟩

theorem renameAcross_into_removed_is_fatal :
    let run := healthyRun (bootstrapped 0 rootGroup)
      (.delete 4 1 1 1 ["b"] 4 none false :: twoDirectoriesLog)
    Run Applies FromLeader (bootstrapped 0 rootGroup) run.1 run.2 ∧
      (∃ u ∈ visited run.1 run.2, LeaderBuilt u renameAcross) ∧
      (Db.healthy run.2).env.Healthy ∧ renameAcross.FitsAllocator run.2 ∧
      applyCommitted renameAcross .initial (.healthy run.2) =
        (.error (.fatal ⟨.internal "Destination parent disappeared"⟩), .healthy run.2) := by
  obtain ⟨hrun, hbuilt⟩ := twoDirectories_run
  refine ⟨healthyRun_next hrun ⟨_, self_mem_visited, ?_⟩,
    ⟨_, List.mem_cons_of_mem _ List.mem_cons_self, hbuilt⟩, fun _ => rfl, trivial, rfl⟩
  exact @delete _ "/b" false 4 _ rfl

end Beryl
