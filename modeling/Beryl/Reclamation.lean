import Beryl.Progress

/-!
# Reclamation runs

A background loop proposes reclamations as long as a detached root is left.  Each
application tears down part of what lies below detached roots and touches nothing
else.  While a marker is left, every application makes the dentry and inode tables
smaller, so the loop ends, and what it has removed by then is exactly the subtrees
that were detached at its start.
-/

namespace Beryl

open History Transaction Forest Store BatchOp OrderedTable DetachedRootReclaimUpdate List

/-- One proposed reclamation and the apply state it is applied with. -/
structure Reclamation where
  candidates : List InodeId
  maxEntries : ℕ
  maxBatchBytes : ℕ
  raftState : AppMetadataRaftState

def Reclamation.command (r : Reclamation) : Command :=
  .reclaimDetachedRoots r.candidates r.maxEntries r.maxBatchBytes

/-- The budgets pass the command's own check and hold the apply state with one item,
and some candidate is marked as long as any inode is. -/
structure Reclamation.Admitted (r : Reclamation) (db : Db) : Prop where
  valid : validateDetachedRootReclaimCommand r.candidates r.maxEntries r.maxBatchBytes =
    .ok ()
  fits : ¬r.command.ExceedsReclaimBudget db.env r.raftState db.store
  marked : (∃ i, db.store.marker i ≠ none) → ∃ i ∈ r.candidates, db.store.marker i ≠ none

def Reclaims (db : Db) (r : Reclamation) (db' : Db) : Prop :=
  (applyCommitted r.command r.raftState db).2 = db'

def Store.size (s : Store) : ℕ := s.dentries.entries.length + s.inodes.entries.length

structure Reclamation.Succeeds (r : Reclamation) (db : Db)
    (update : DetachedRootReclaimUpdate) (result : DetachedRootReclaimResult) : Prop where
  run_eq : applyCommitted r.command r.raftState db =
    (.ok (.new (.ofCommand r.command) (.ok (.detachedRootsReclaimed result))),
      db.commit update.ops r.raftState)
  plan : ReclaimPlan db.store r.candidates r.maxEntries update
  counts : result.Counts update r.maxBatchBytes
  bytes_eq : result.logicalBatchBytes = db.env.applyStateBytes r.raftState + update.bytes

theorem Reclamation.Admitted.succeeds {r : Reclamation} {db : Db} (h : r.Admitted db)
    (hhealthy : db.env.Healthy) (hlinked : Linked db.store) (hnames : NamesValid db.store) :
    ∃ update result, r.Succeeds db update result := by
  have hplans : Ensures (applyReclaimDetachedRoots r.candidates r.maxEntries
      r.maxBatchBytes r.raftState) db _ (Refusal True db) :=
    applyReclaimDetachedRoots_plans (fun _ => ⟨hhealthy, hlinked, hnames⟩) (fun _ => h.valid)
      fun _ => h.fits
  replace hplans := hplans.and (NeverRejects.applyReclaimDetachedRoots r.candidates
    r.maxEntries r.maxBatchBytes r.raftState db)
  rcases hrun : applyReclaimDetachedRoots r.candidates r.maxEntries r.maxBatchBytes
    r.raftState db with ⟨abort | result, db'⟩
  · obtain ⟨⟨_, error, rfl, hrejectable⟩, hfatal⟩ := hplans.of_error hrun
    exact absurd (hrejectable trivial) (hfatal error rfl)
  · obtain ⟨⟨update, hplan, rfl, hcounts, hbytes⟩, _⟩ := hplans.of_ok hrun
    exact ⟨update, result, applyCommitted_of_ok (bind_of_ok hrun), hplan, hcounts, hbytes⟩

def Store.others (s : Store) : Store :=
  { s with inodes := .empty, dentries := .empty, detachedRoots := .empty }

/-- `s'` is `s` after some reclamations: part of what was below detached roots is gone,
a marker is the one of the detached root it was below, and nothing else changed. -/
structure Store.Reclaimed (s s' : Store) : Prop where
  sheds : s.forest.Sheds s'.forest
  inode_of : ∀ {i inode}, s'.inode i = some inode → s.inode i = some inode
  marker_of : ∀ {i marker}, s'.marker i = some marker →
    ∃ r, s.marker r = some marker ∧ s.forest.Below r i
  others_eq : s'.others = s.others

theorem Store.Reclaimed.refl (s : Store) : s.Reclaimed s :=
  ⟨.refl _, fun h => h, fun h => ⟨_, h, .refl⟩, rfl⟩

theorem Store.Reclaimed.trans {s s' s'' : Store} (h : s.Reclaimed s')
    (h' : s'.Reclaimed s'') : s.Reclaimed s'' where
  sheds := h.sheds.trans h'.sheds
  inode_of hinode := h.inode_of (h'.inode_of hinode)
  marker_of hmarker := by
    obtain ⟨r', hr', hbelow'⟩ := h'.marker_of hmarker
    obtain ⟨r, hr, hbelow⟩ := h.marker_of hr'
    exact ⟨r, hr, hbelow.trans (h.sheds.below_of hbelow')⟩
  others_eq := h'.others_eq.trans h.others_eq

theorem Store.Reclaimed.namesValid {s s' : Store} (h : s.Reclaimed s')
    (hnames : NamesValid s) : NamesValid s' := fun hdentry => hnames (h.sheds.child_of hdentry)

theorem Store.others_applyBatch {batch : WriteBatch} :
    ∀ {s : Store}, (∀ op ∈ batch, op.Reclaims) → (s.applyBatch batch).others = s.others := by
  induction batch with
  | nil => exact fun _ => rfl
  | cons op rest ih =>
    intro s hops
    have hop := hops op mem_cons_self
    rw [applyBatch_cons, ih fun op hop => hops op (mem_cons_of_mem _ hop)]
    cases op with
    | deleteDentry => rfl
    | deleteInode => rfl
    | putDetachedRoot => rfl
    | deleteDetachedRoot => rfl
    | _ => exact hop.elim

section Plan

variable {s : Store} {candidates : List InodeId} {maxEntries : ℕ}
  {update : DetachedRootReclaimUpdate}

theorem ReclaimPlan.reclaimed (hplan : ReclaimPlan s candidates maxEntries update)
    (hforest : s.forest.WellFormed) : s.Reclaimed (s.applyBatch update.ops) where
  sheds := hplan.tears.sheds hforest
  inode_of hinode := by
    rcases applyBatch_inode hinode with hbefore | ⟨hput, _⟩
    · exact hbefore
    · exact absurd hput putInode_notMem_reclaim
  marker_of hmarker := by
    rcases applyBatch_marker hmarker with hbefore | hput
    · exact ⟨_, hbefore, .refl⟩
    · obtain ⟨p, n, hparent, hdentry⟩ := hplan.marker_put hput
      exact ⟨p, hparent, .single ⟨n, hdentry⟩⟩
  others_eq := others_applyBatch fun _ hop => update.reclaims hop

theorem Store.applyBatch_deleted {α : Type} (read : Store → Option α) {deletes : BatchOp}
    (hdeletes : ∀ s, read (deletes.apply s) = none) {batch : WriteBatch}
    (hkeeps : ∀ op ∈ batch, ∀ s, read s = none → read (op.apply s) = none)
    (hmem : deletes ∈ batch) : ∀ s : Store, read (s.applyBatch batch) = none := by
  have hstays : ∀ rest ⊆ batch, ∀ s, read s = none → read (s.applyBatch rest) = none := by
    intro rest
    induction rest with
    | nil => exact fun _ s h => h
    | cons op rest ih =>
      intro hrest s h
      rw [cons_subset] at hrest
      exact ih hrest.2 _ (hkeeps op hrest.1 s h)
  intro s
  obtain ⟨front, back, rfl⟩ := append_of_mem hmem
  rw [applyBatch_append, applyBatch_cons]
  exact hstays back (fun op hop => mem_append_right _ (mem_cons_of_mem _ hop)) _ (hdeletes _)

theorem BatchOp.Reclaims.keeps_none {op : BatchOp} (h : op.Reclaims) (s : Store) :
    (∀ p n, s.dentry p n = none → (op.apply s).dentry p n = none) ∧
      ∀ i, s.inode i = none → (op.apply s).inode i = none := by
  cases op with
  | deleteDentry =>
    refine ⟨fun p n hnone => ?_, fun _ hnone => hnone⟩
    simp only [apply, dentry, get_delete] at hnone ⊢
    split
    · rfl
    · exact hnone
  | deleteInode =>
    refine ⟨fun _ _ hnone => hnone, fun i hnone => ?_⟩
    simp only [apply, inode, get_delete] at hnone ⊢
    split
    · rfl
    · exact hnone
  | putDetachedRoot | deleteDetachedRoot => exact ⟨fun _ _ hnone => hnone, fun _ hnone => hnone⟩
  | _ => exact h.elim

theorem DetachedRootReclaimUpdate.dentry_none {entry : DetachedRootReclaimEntry}
    (h : entry ∈ update.entries) :
    (s.applyBatch update.ops).dentry entry.parentInodeId entry.name = none := by
  refine applyBatch_deleted (fun s => s.dentry entry.parentInodeId entry.name)
    (fun s => ?_) (fun op hop s => (BatchOp.Reclaims.keeps_none (update.reclaims hop) s).1 _ _)
    (show deleteDentry entry.parentInodeId entry.name ∈ update.ops from ?_) s
  · simp [apply, dentry]
  · exact mem_append_left _ (mem_flatMap.2 ⟨entry, h, mem_cons_self⟩)

theorem DetachedRootReclaimUpdate.inode_none {root : InodeId}
    (h : root ∈ update.completedRootInodeIds) : (s.applyBatch update.ops).inode root = none := by
  refine applyBatch_deleted (fun s => s.inode root) (fun s => ?_)
    (fun op hop s => (BatchOp.Reclaims.keeps_none (update.reclaims hop) s).2 _)
    (show deleteInode root ∈ update.ops from ?_) s
  · simp [apply, inode]
  · exact mem_append_right _ (mem_flatMap.2 ⟨root, h, mem_cons_self⟩)

theorem ReclaimPlan.size_lt (hplan : ReclaimPlan s candidates maxEntries update)
    (hforest : s.forest.WellFormed) (hmarked : ∃ i ∈ candidates, s.marker i ≠ none) :
    (s.applyBatch update.ops).size < s.size := by
  have hreclaimed := hplan.reclaimed hforest
  have hdentries : ∀ {key}, (s.applyBatch update.ops).dentries.get key ≠ none →
      s.dentries.get key ≠ none := by
    intro key hkey
    obtain ⟨p, n, rfl⟩ := exists_dentryKey key
    obtain ⟨child, hchild⟩ := Option.ne_none_iff_exists'.1 hkey
    exact Option.ne_none_iff_exists'.2 ⟨child, hreclaimed.sheds.child_of hchild⟩
  have hinodes : ∀ {i}, (s.applyBatch update.ops).inodes.get i ≠ none → s.inodes.get i ≠ none := by
    intro i hi
    obtain ⟨inode, hinode⟩ := Option.ne_none_iff_exists'.1 hi
    exact Option.ne_none_iff_exists'.2 ⟨inode, hreclaimed.inode_of hinode⟩
  obtain ⟨hdentriesLe, hdentriesLt⟩ := length_le_of_keys hdentries
  obtain ⟨hinodesLe, hinodesLt⟩ := length_le_of_keys hinodes
  unfold size
  cases hentries : update.entries with
  | cons entry =>
    have hmem : entry ∈ update.entries := by simp [hentries]
    have hdentry := (hplan.entries_ok entry hmem).present.dentry_eq
    have hlt := hdentriesLt (dentryKey entry.parentInodeId entry.name)
      (by rw [show s.dentries.get _ = _ from hdentry]; simp)
      (dentry_none hmem)
    omega
  | nil =>
    cases hcompleted : update.completedRootInodeIds with
    | nil =>
      obtain ⟨i, hi, hmarker⟩ := hmarked
      exact absurd (hplan.unmarked hentries hcompleted i hi) hmarker
    | cons root =>
      have hmem : root ∈ update.completedRootInodeIds := by simp [hcompleted]
      obtain ⟨marker, hmarker⟩ := hplan.completed_marked root hmem
      have hdetached : s.forest.detached root := by simp [forest, hmarker]
      obtain ⟨inode, hinode, _⟩ := kind_eq_branch.1 (hforest.detached_branch hdetached)
      have hlt := hinodesLt root (by rw [show s.inodes.get _ = _ from hinode]; simp)
        (inode_none hmem)
      omega

end Plan

/-- What holds between the start of a run and any database it reaches. -/
structure ReclaimingFrom (start db : Db) : Prop where
  env_eq : db.env = start.env
  linked : Linked db.store
  names : NamesValid db.store
  reclaimed : start.store.Reclaimed db.store

theorem ReclaimingFrom.next {start db db' : Db} {r : Reclamation}
    (h : ReclaimingFrom start db) (hhealthy : start.env.Healthy) (hadmitted : r.Admitted db)
    (hstep : Reclaims db r db') : ReclaimingFrom start db' ∧ db.store.Reclaimed db'.store ∧
      (∃ update result, r.Succeeds db update result) ∧
      ((∃ i, db.store.marker i ≠ none) → db'.store.size < db.store.size) := by
  obtain ⟨update, result, hsucceeds⟩ := hadmitted.succeeds (h.env_eq ▸ hhealthy) h.linked h.names
  have hafter : db' = db.commit update.ops r.raftState := by
    rw [← hstep, hsucceeds.run_eq]
  have hplan := hsucceeds.plan
  have heffect : Effect db.store r.command (.detachedRootsReclaimed result) update.ops :=
    .reclaimed hplan hsucceeds.counts
  have hreclaimed := hplan.reclaimed h.linked.forest
  subst hafter
  refine ⟨⟨h.env_eq, heffect.linked h.linked trivial, hreclaimed.namesValid h.names,
    h.reclaimed.trans hreclaimed⟩, hreclaimed, ⟨update, result, hsucceeds⟩, fun hmarked => ?_⟩
  exact hplan.size_lt h.linked.forest (hadmitted.marked hmarked)

theorem Store.Reclaimed.marked {s s' : Store} (h : s.Reclaimed s')
    (hmarked : ∃ i, s'.marker i ≠ none) : ∃ i, s.marker i ≠ none := by
  obtain ⟨i, hi⟩ := hmarked
  obtain ⟨marker, hmarker⟩ := Option.ne_none_iff_exists'.1 hi
  obtain ⟨r, hr, _⟩ := h.marker_of hmarker
  exact ⟨r, by rw [hr]; simp⟩

abbrev ReclamationRun (start : Db) (past : List (Transition Db Reclamation)) (db : Db) :
    Prop :=
  Run Reclaims (fun _ db r => r.Admitted db) start past db

section Loop

variable {start db : Db} {past : List (Transition Db Reclamation)}

theorem reclaimingFrom_of_run (hhealthy : start.env.Healthy) (hlinked : Linked start.store)
    (hnames : NamesValid start.store) (hrun : ReclamationRun start past db) :
    ReclaimingFrom start db :=
  Run.invariant hrun ⟨rfl, hlinked, hnames, .refl _⟩ fun _ h hadmitted hstep =>
    (h.next hhealthy hadmitted hstep).1

theorem length_le_of_run (hhealthy : start.env.Healthy) (hlinked : Linked start.store)
    (hnames : NamesValid start.store) (hrun : ReclamationRun start past db)
    (hmarked : ∃ i, db.store.marker i ≠ none) : past.length + db.store.size ≤ start.store.size := by
  induction hrun with
  | start => simp
  | next hrun hadmitted hstep ih =>
    have hfrom := reclaimingFrom_of_run hhealthy hlinked hnames hrun
    obtain ⟨_, hreclaimed, _, hlt⟩ := hfrom.next hhealthy hadmitted hstep
    have hbefore := hreclaimed.marked hmarked
    have hle := ih hbefore
    have := hlt hbefore
    rw [length_cons]
    omega

/-- From a well-formed namespace, reclamations whose budgets hold one item and whose
candidates include a marked inode while there is one all succeed within their budgets.
There are no more of them than dentries and inodes at the start before the last marker
is gone; then exactly what was below detached roots is removed.  On the way nothing that
a mount root reaches is touched, and every marker is the one of the root it was below. -/
theorem reclamation_removes_detached (hhealthy : start.env.Healthy)
    (hlinked : Linked start.store) (hnames : NamesValid start.store)
    (hrun : ReclamationRun start past db) :
    (∀ t ∈ past, ∃ update result, t.label.Succeeds t.before update result) ∧
    ((∃ i, db.store.marker i ≠ none) → past.length + db.store.size ≤ start.store.size) ∧
    ((∀ i, db.store.marker i = none) → (∀ i, start.store.forest.Doomed i → db.store.inode i = none ∧
        ∀ n, db.store.dentry i n = none) ∧
      ∀ i, ¬start.store.forest.Doomed i → db.store.inode i = start.store.inode i ∧
        ∀ n, db.store.dentry i n = start.store.dentry i n) ∧
    (∀ i, start.store.forest.Mounted i → db.store.inode i = start.store.inode i ∧
      ∀ n, db.store.dentry i n = start.store.dentry i n) ∧
    (∀ i marker, db.store.marker i = some marker →
      ∃ r, start.store.marker r = some marker ∧ start.store.forest.Below r i) ∧
    db.store.others = start.store.others := by
  have hfrom := reclaimingFrom_of_run hhealthy hlinked hnames hrun
  have hsheds := hfrom.reclaimed.sheds
  have hinode : ∀ i, db.store.forest.kind i = start.store.forest.kind i →
      db.store.inode i = start.store.inode i := by
    intro i hkind
    cases hi : db.store.inode i with
    | some => exact (hfrom.reclaimed.inode_of hi).symm
    | none =>
      have hnone : start.store.forest.kind i = none := by
        rw [← hkind]
        simp [forest, hi]
      exact (by simpa [forest] using hnone : start.store.inode i = none).symm
  refine ⟨fun t ht => ?_, length_le_of_run hhealthy hlinked hnames hrun, fun hnone => ?_,
    fun i hi => ?_, fun i marker hmarker => hfrom.reclaimed.marker_of hmarker,
    hfrom.reclaimed.others_eq⟩
  · obtain ⟨older, holder, hadmitted, hstep⟩ := Run.of_mem hrun ht
    have hbefore := reclaimingFrom_of_run hhealthy hlinked hnames holder
    exact (hbefore.next hhealthy hadmitted hstep).2.2.1
  · have hundetached : ∀ i, ¬db.store.forest.detached i := fun i hi => hi (hnone i)
    obtain ⟨hgone, hkept⟩ := hsheds.finished hfrom.linked.forest hundetached
    refine ⟨fun i hi => ⟨?_, (hgone i hi).2⟩, fun i hi => ⟨hinode i (hkept i hi).1,
      fun n => congrFun (hkept i hi).2 n⟩⟩
    simpa [forest] using (hgone i hi).1
  · have hundoomed := hlinked.forest.not_doomed_of_mounted hi
    exact ⟨hinode i (hsheds.kind_kept hundoomed), fun n => congrFun (hsheds.child_kept hundoomed) n⟩

end Loop

/-- The directory `/a` with one file, and its recursive removal. -/
def detachedLog : List Command :=
  [.delete 3 1 1 1 ["a"] 2 none true,
    .createFile 2 ⟨7, 1⟩ 10 20 "/a/f" 1 1 1 ["a", "f"] .new sampleLayout,
    .createDirectory 1 1 ["a"] .new false]

def detachedDb : Db := .healthy (healthyRun (Store.bootstrapped 0 rootGroup) detachedLog).2

def wholeDirectory : Reclamation := ⟨[2], 10, 4096, .initial⟩

theorem reclamation_removes_detached_whole :
    let db := (applyCommitted wholeDirectory.command .initial detachedDb).2
    detachedDb.store.inodes.entries.map Prod.fst = [1, 2, 3] ∧
    db.store.inodes.entries.map Prod.fst = [1] ∧
    ∀ i, detachedDb.store.forest.Doomed i → db.store.inode i = none := by
  intro db
  have hlinked : Linked detachedDb.store := by
    have hrun : Run Applies IntoDirectory (bootstrapped 0 rootGroup)
        (healthyRun (bootstrapped 0 rootGroup) detachedLog).1 detachedDb.store :=
      healthyRun_next (healthyRun_next (healthyRun_next .start trivial) trivial) trivial
    exact linked_of_run (fun h => h) hrun (.bootstrapped 0 rootGroup)
  have hnames : NamesValid detachedDb.store := by
    intro p n c hdentry
    have hentries : detachedDb.store.dentries.entries = [(dentryKey 2 "f", 3)] := rfl
    have hmem := detachedDb.store.dentries.mem_entries_iff.2 hdentry
    rw [hentries, mem_singleton, Prod.mk.injEq, dentryKey_inj] at hmem
    rw [hmem.1.2]
    exact ⟨by decide, by decide, by decide, by decide⟩
  have hrun : ReclamationRun detachedDb [⟨detachedDb, wholeDirectory, db⟩] db := by
    refine .next .start ⟨rfl, not_lt.2 ?_, fun _ => ⟨2, ?_, ?_⟩⟩ rfl
    · decide
    · simp [wholeDirectory]
    · decide
  have hnone : ∀ i, db.store.marker i = none := by
    intro i
    have hentries : db.store.detachedRoots = .empty := rfl
    rw [marker, hentries]
    rfl
  refine ⟨rfl, rfl, fun i hi => ?_⟩
  exact (((reclamation_removes_detached (fun _ => rfl) hlinked hnames hrun).2.2.1 hnone).1 i hi).1

end Beryl
