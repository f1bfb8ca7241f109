import Beryl.StorageSpec

/-!
# Specifications of the namespace commands
-/

namespace Beryl

open Transaction List

variable {hyp : Prop} {db : Db} {raftState : AppMetadataRaftState}

theorem Store.mounts_eq_nil {s : Store} (h : s.mounts.entries.map Prod.snd = [])
    (m : MountId) : s.mounts.get m = none := by
  cases hget : s.mounts.get m with
  | none => rfl
  | some =>
    have hmem := s.mounts.mem_entries_iff.2 hget
    rw [map_eq_nil_iff.1 h] at hmem
    cases hmem

theorem root_of_rootInodeMatches {root : Option Inode} (h : rootInodeMatches root = true) :
    ∃ inode, root = some inode ∧ inode.inodeId = rootInodeId ∧ inode.kind = .dir ∧
      inode.mountId = rootMountId := by
  cases root with
  | none => cases h
  | some inode =>
    simp only [rootInodeMatches, Bool.and_eq_true, decide_eq_true_eq] at h
    exact ⟨inode, rfl, h.1.1.1, h.1.2, h.2⟩

variable {groupName : GroupName} {proposedAtMs : ℕ} {ok : Unit → Db → Prop} {attrs : InodeAttrs}
  {entries : List RecursiveMkdirEntry} {components : List String}

theorem eq_of_rootMountMatches {mounts : List MountEntry}
    (h : rootMountMatches groupName mounts = true) : mounts = [rootMountEntry groupName] := by
  unfold rootMountMatches at h
  split at h
  · next mount =>
    cases mount
    simp only [Bool.and_eq_true, decide_eq_true_eq] at h
    simp [rootMountEntry, h]
  · cases h

/-- What the state that the bootstrap finds says about the store. -/
def BootstrapNamespaceState.Shows (s : Store) (groupName : GroupName) :
    BootstrapNamespaceState → Prop
  | .empty => (∀ i, s.inode i = none) ∧ (∀ m, s.mounts.get m = none) ∧ s.nextInodeId = none
  | .matching => Bootstrapped s groupName
  | .conflicting => True

theorem DirectoryPlan.ids {s : Store} {t next next' : ℕ} {parent last : Inode}
    (h : DirectoryPlan s attrs t parent next components last next' entries) :
    entries.map (fun entry => entry.inode.inodeId) = range' next entries.length ∧
      next' = next + entries.length ∧ entries.length ≤ components.length := by
  induction h with
  | done => simp
  | enter _ _ _ _ ih =>
    refine ⟨ih.1, ih.2.1, ?_⟩
    simp only [length_cons]
    omega
  | create _ _ ih =>
    refine ⟨?_, ?_, ?_⟩
    · rw [map_cons, ih.1, length_cons, range'_succ]
      rfl
    · rw [ih.2.1, length_cons]
      omega
    · simp only [length_cons]
      omega

variable (hfit : hyp → db.Fit)
include hfit

theorem bootstrapNamespaceState_ensures : Ensures (bootstrapNamespaceState groupName) db
      (fun state db' => db' = db ∧ state.Shows db.store groupName) (Refusal hyp db) := by
  unfold bootstrapNamespaceState
  refine query_bind hfit (query_bind hfit (query_bind hfit (query_bind hfit (query_bind hfit ?_))))
  have hrest : ∀ (state : Bool),
      (state = false → BootstrapNamespaceState.empty.Shows db.store groupName) →
      Ensures (if !state then pure .empty
        else if rootInodeMatches (db.store.inode rootInodeId) &&
            rootMountMatches groupName (db.store.mounts.entries.map Prod.snd) then do
          let highest ← maxInodeId
          if highest = some rootInodeId ∧ db.store.routeEpoch = some 1 ∧
              db.store.mountEpoch = some 1 ∧ db.store.nextInodeId = some 2 then pure .matching
          else pure .conflicting
        else pure .conflicting : StorageM BootstrapNamespaceState) db
        (fun state db' => db' = db ∧ state.Shows db.store groupName) (Refusal hyp db) := by
    intro state hempty
    cases state with
    | false => exact ensures_pure ⟨rfl, hempty rfl⟩
    | true =>
      simp only [Bool.not_true, Bool.false_eq_true, if_false]
      split
      · next hmatches =>
        rw [Bool.and_eq_true] at hmatches
        refine reads_bind (maxInodeId_ensures hfit) ?_
        rintro _ rfl
        split
        · next hscalars =>
          obtain ⟨hlast, hroute, hmount, hnext⟩ := hscalars
          exact ensures_pure ⟨rfl, root_of_rootInodeMatches hmatches.1,
            eq_of_rootMountMatches hmatches.2, hlast, hroute, hmount, hnext⟩
        · exact ensures_pure ⟨rfl, trivial⟩
      · exact ensures_pure ⟨rfl, trivial⟩
  by_cases hscalars : ((db.store.inode rootInodeId).isSome ||
      decide (db.store.mounts.entries.map Prod.snd ≠ []) ||
      db.store.routeEpoch.isSome || db.store.mountEpoch.isSome ||
      db.store.nextInodeId.isSome) = true
  · rw [if_pos hscalars]
    exact ensures_bind (ensures_pure (hrest true fun h => by cases h))
  · rw [if_neg hscalars]
    refine reads_bind (maxInodeId_ensures hfit) ?_
    rintro _ rfl
    refine ensures_bind (ensures_pure (hrest _ fun hnone => ?_))
    simp only [Bool.or_eq_true, not_or, Option.isSome_iff_ne_none, ne_eq, not_not,
      decide_eq_true_eq] at hscalars hnone
    refine ⟨Store.lastInodeKey_eq_none.1 ?_, Store.mounts_eq_nil hscalars.1.1.1.2, hscalars.2⟩
    simpa using hnone

theorem bootstrapNamespaceAtomic_ensures
    (hok : ok () (db.commit (bootstrapOps proposedAtMs groupName) raftState)) :
    Ensures (bootstrapNamespaceAtomic (rootInode proposedAtMs)
        (rootMountEntry groupName) raftState) db ok (Refusal hyp db) := by
  unfold bootstrapNamespaceAtomic batchPutMount batchPutRouteEpoch batchPutMountEpoch
  refine batchPutInode_bind hfit (ensures_bind (encode_bind hfit
    (ensures_pure (ensures_bind (encode_bind hfit (ensures_pure (ensures_bind
      (encode_bind hfit (ensures_pure (encode_bind hfit ?_))))))))))
  exact commitAuthorityBatch_ensures hfit (by simpa [bootstrapOps] using hok)

theorem applyBootstrapNamespace_ensures :
    Ensures (applyBootstrapNamespace groupName proposedAtMs raftState) db
      (fun entry => Commits db (.bootstrapNamespace proposedAtMs groupName) raftState
        (.mountUpserted entry)) (Refusal hyp db) := by
  unfold applyBootstrapNamespace
  refine reads_bind (bootstrapNamespaceState_ensures hfit) fun state hshows => ?_
  refine rejectIf_bind ⟨_, rfl⟩ fun hconflict => ?_
  cases state with
  | conflicting => exact absurd rfl hconflict
  | matching => exact commit_bind hfit (ensures_pure ⟨_, .bootstrapConfirmed hshows, rfl⟩)
  | empty =>
    obtain ⟨hinodes, hmounts, hnext⟩ := hshows
    exact ensures_bind (bootstrapNamespaceAtomic_ensures hfit
      (ensures_pure ⟨_, .bootstrapped hinodes hmounts hnext, rfl⟩))

theorem applyRegisterWorker_ensures {workerId : WorkerId} {address : String} {protocol : ℤ}
    {domain : Option String} :
    Ensures (applyRegisterWorker groupName workerId address protocol domain raftState)
      db (fun worker => Commits db (.registerWorkerDescriptor proposedAtMs groupName
        workerId address protocol domain) raftState (.workerUpserted worker)) (Refusal hyp db) := by
  unfold applyRegisterWorker prepareWorkerRegistration registerWorkerAtomic
    batchPutWorker
  refine ensures_bind (rejectIf_bind ⟨_, rfl⟩ fun hworker => ensures_pure ?_)
  refine ensures_bind (rejectIf_bind ⟨_, rfl⟩ fun _ => ?_)
  refine ensures_bind (encode_bind hfit (ensures_pure ?_))
  exact commitAuthorityBatch_ensures hfit (ensures_pure ⟨_, .workerRegistered hworker, rfl⟩)

variable {allocation : InodeAllocation} {parentInodeId : InodeId} {name : String}

theorem createDirAtomic_ensures {inode updatedParent : Inode}
    (halloc : db.store.Allocates allocation.inodeId)
    (hnext : allocation.nextInodeId = allocation.inodeId + 1)
    (hid : inode.inodeId = allocation.inodeId) (hroom : hyp → db.store.AllocatorRoom 1)
    (hok : ok () (db.commit (createEntryOps parentInodeId name inode updatedParent ++
      [.putNextInodeId (allocation.inodeId + 1)]) raftState)) :
    Ensures (createDirAtomic allocation parentInodeId name inode updatedParent raftState)
      db ok (Refusal hyp db) := by
  unfold createDirAtomic
  rw [hid]
  refine reads_bind (validateInodeAllocationTargets_ensures hfit halloc one_pos
    hnext hroom) fun _ _ => ?_
  refine createEntryBatch_bind hfit (batchPutInodeAllocation_bind hfit ?_)
  rw [hnext, nil_append]
  exact commitAuthorityBatch_ensures hfit hok

theorem applyMkdir_ensures (hroom : hyp → db.store.AllocatorRoom 1) :
    Ensures (applyMkdir parentInodeId name attrs proposedAtMs raftState) db (fun made => Commits db
        (.createDirectory proposedAtMs parentInodeId [name] attrs false) raftState
        (.directoryEnsured made.1 made.2)) (Refusal hyp db) := by
  unfold applyMkdir
  refine query_bind hfit (okOrElse_bind ⟨_, rfl⟩ fun parent hparent => ?_)
  refine rejectIf_bind ⟨_, rfl⟩ fun hdir => ?_
  have hdir := fileType_eq_dir.1 (not_not.1 hdir)
  refine query_bind hfit (rejectIf_bind ⟨_, rfl⟩ fun hfree => ?_)
  have hfree := Option.not_isSome_iff_eq_none.1 hfree
  refine reads_bind (prepareInodeAllocation_ensures hfit ⟨_, _, hparent⟩ hroom) ?_
  rintro allocation ⟨halloc, hnext⟩
  refine ensures_bind (createDirAtomic_ensures hfit halloc hnext rfl hroom (ensures_pure ?_))
  exact ⟨_, .directoryMade hparent hdir hfree halloc, rfl⟩

theorem planDirectories_ensures (components : List String) :
    ∀ parent nextRaw entries, (hyp → nextRaw + components.length < 2 ^ 64) →
    Ensures (planDirectories attrs proposedAtMs parent nextRaw entries components) db
      (fun plan db' => db' = db ∧ ∃ added, plan.2.2 = entries ++ added ∧
        DirectoryPlan db.store attrs proposedAtMs parent nextRaw components plan.1 plan.2.1 added)
      (Refusal hyp db) := by
  induction components with
  | nil =>
    intro parent nextRaw entries _
    exact ensures_pure ⟨rfl, [], by simp, .done⟩
  | cons name rest ih =>
    intro parent nextRaw entries hbound
    refine query_bind hfit ?_
    cases hdentry : db.store.dentry parent.inodeId name with
    | some =>
      refine query_bind hfit (okOrElse_bind ⟨_, rfl⟩ fun child hchild => ?_)
      refine rejectIf_bind ⟨_, rfl⟩ fun hdir => ?_
      have hdir := fileType_eq_dir.1 (not_not.1 hdir)
      refine (ih child nextRaw entries fun hhyp => ?_).mono ?_ fun _ _ h => h
      · have := hbound hhyp
        simp only [length_cons] at this
        omega
      · rintro plan db' ⟨rfl, added, hadded, hplan⟩
        exact ⟨rfl, added, hadded, .enter hdentry hchild hdir hplan⟩
    | none =>
      refine okOr_bind (fun hoverflow => .excluded fun hhyp => ?_) fun next hnext => ?_
      · have hlt : nextRaw + 1 < 2 ^ 64 := by
          have := hbound hhyp
          simp only [length_cons] at this
          omega
        rw [checkedAddU64_of_lt hlt] at hoverflow
        cases hoverflow
      obtain ⟨rfl, _⟩ := checkedAddU64_eq_some hnext
      refine (ih _ (nextRaw + 1) _ fun hhyp => ?_).mono ?_ fun _ _ h => h
      · have := hbound hhyp
        simp only [length_cons] at this
        omega
      · rintro plan db' ⟨rfl, added, hadded, hplan⟩
        exact ⟨rfl, _ :: added, by rw [hadded, append_assoc, singleton_append],
          .create hdentry hplan⟩

theorem createDirectoriesAtomic_ensures
    (halloc : db.store.Allocates allocation.inodeId) (hentries : entries ≠ [])
    (hids : entries.map (fun entry => entry.inode.inodeId) = range' allocation.inodeId
      entries.length) (hnext : allocation.nextInodeId = allocation.inodeId + entries.length)
    (hroom : hyp → db.store.AllocatorRoom entries.length)
    (hok : ok () (db.commit (directoriesOps entries allocation.nextInodeId) raftState)) :
    Ensures (createDirectoriesAtomic allocation entries raftState) db ok (Refusal hyp db) := by
  unfold createDirectoriesAtomic
  rw [hids]
  refine reads_bind (validateInodeAllocationTargets_ensures hfit halloc
    (length_pos_iff.2 hentries) hnext hroom) fun _ _ => ?_
  refine reads_bind (createDirectoriesBatch_ensures hfit entries []) ?_
  rintro batch rfl
  refine batchPutInodeAllocation_bind hfit ?_
  refine commitAuthorityBatch_ensures hfit ?_
  simpa [directoriesOps, hentries] using hok

theorem applyCreateDirectory_ensures {rootInodeId : InodeId}
    (hroom : hyp → db.store.AllocatorRoom components.length) :
    Ensures (applyCreateDirectory rootInodeId components attrs proposedAtMs raftState)
      db (fun made => Commits db
        (.createDirectory proposedAtMs rootInodeId components attrs true) raftState
        (.directoryEnsured made.1 made.2)) (Refusal hyp db) := by
  unfold applyCreateDirectory
  refine rejectIf_bind ⟨_, rfl⟩ fun hcomponents => ?_
  rw [not_or] at hcomponents
  have hlength : 1 ≤ components.length := length_pos_iff.2 hcomponents.1
  refine query_bind hfit (okOrElse_bind ⟨_, rfl⟩ fun root hroot => ?_)
  refine rejectIf_bind ⟨_, rfl⟩ fun hdir => ?_
  have hdir := fileType_eq_dir.1 (not_not.1 hdir)
  refine reads_bind (prepareInodeAllocation_ensures hfit ⟨_, _, hroot⟩ fun hhyp next hnext => ?_) ?_
  · have := hroom hhyp next hnext
    lia
  rintro allocation ⟨halloc, _⟩
  refine reads_bind (planDirectories_ensures hfit components root
    allocation.inodeId [] fun hhyp => hroom hhyp _ halloc.next_eq) ?_
  rintro ⟨last, next, entries⟩ ⟨added, hadded, hplan⟩
  simp only [nil_append] at hadded hplan
  subst hadded
  obtain ⟨hids, hnext, hle⟩ := hplan.ids
  have heffect := Effect.directoriesMade hroot hdir hcomponents.2 halloc hplan
  by_cases hentries : entries = []
  · simp only [hentries, if_true]
    refine commit_bind hfit (ensures_pure ⟨_, heffect, ?_⟩)
    simp [directoriesOps, hentries]
  · simp only [hentries, if_false]
    refine ensures_bind (createDirectoriesAtomic_ensures hfit halloc hentries hids
      hnext (fun hhyp n hn => ?_) (ensures_pure ⟨_, heffect, rfl⟩))
    have := hroom hhyp n hn
    lia

end Beryl
