import Beryl.Soundness

/-!
# Commands with stale parents

Between the leader's look at a path and the apply of its command the parent may
have been cut off from the mount.  `CreateFile`, `Delete` and the recursive
`CreateDirectory` walk down from the mount root again when they are applied, so
they edit mounted directories only.  The plain `CreateDirectory` and `Rename` carry
the ids of their parents and only check that the inodes are still there: they edit
a mounted directory exactly if those parents have not been cut off.
-/

namespace Beryl

open History Store LeaderBuilt BatchOp List

/-! ## Mounted directories -/

/-- Below a detached root, or below a directory that is below itself. -/
def Store.CutOff (s : Store) (i : InodeId) : Prop :=
  (∃ r, s.marker r ≠ none ∧ s.forest.Below r i) ∨
    ∃ c, s.forest.Cyclic c ∧ s.forest.Below c i

theorem Store.finite_kinds (s : Store) : {i | s.forest.kind i ≠ none}.Finite := by
  refine s.inodes.finite_keys.subset fun i hi => ?_
  exact kind_ne_none.1 hi

variable {i : InodeId} {inode : Inode} {batch : WriteBatch}

theorem Linked.mounted_iff {s : Store} (h : Linked s)
    (hinode : s.inode i = some inode) : s.forest.Mounted i ↔ ¬s.CutOff i := by
  rw [Store.CutOff, not_or]
  exact h.forest.mounted_iff s.finite_kinds (kind_ne_none.2 ⟨inode, hinode⟩)

section Walks

variable {s : Store} {components : List String} {name : String}

theorem Store.IsMountRoot.mounted (h : s.IsMountRoot i) : s.forest.Mounted i := ⟨i, h, .refl⟩

theorem DirectoryPath.mounted {parent last : Inode} (hpath : DirectoryPath s parent components last)
    (hparent : s.forest.Mounted parent.inodeId) : s.forest.Mounted last.inodeId := by
  induction hpath with
  | nil => exact hparent
  | cons hdentry _ hid _ _ ih =>
    refine ih ?_
    rw [hid]
    exact hparent.child ⟨_, hdentry⟩

variable {mountRootInodeId : InodeId}

theorem MountRootAt.mounted {root last : Inode} (hroot : MountRootAt s mountRootInodeId root)
    (hpath : DirectoryPath s root components last) : s.forest.Mounted last.inodeId := by
  refine hpath.mounted ?_
  rw [hroot.id_eq]
  exact hroot.is_root.mounted

theorem DeleteTarget.mounted {parent child : Inode}
    (h : DeleteTarget s mountRootInodeId components parent name child) :
    s.forest.Mounted parent.inodeId := by
  obtain ⟨root, hroot, hpath⟩ := h.walk
  exact hroot.mounted hpath

theorem CreateParent.mounted {parent : Inode}
    (h : CreateParent s mountRootInodeId components parent name) :
    s.forest.Mounted parent.inodeId := by
  obtain ⟨root, hroot, hpath⟩ := h.walk
  exact hroot.mounted hpath

end Walks

/-! ## Edits -/

/-- Every directory with a changed entry was mounted before, or is new and mounted
after. -/
def Store.EditsMounted (s s' : Store) : Prop :=
  ∀ p n, s.dentry p n ≠ s'.dentry p n →
    (∀ inode, s.inode p = some inode → s.forest.Mounted p) ∧
    (s.inode p = none → s'.forest.Mounted p)

theorem Store.dentry_changed {p : InodeId} {n : String} :
    ∀ {s : Store}, s.dentry p n ≠ (s.applyBatch batch).dentry p n →
      (∃ c, BatchOp.putDentry p n c ∈ batch) ∨ BatchOp.deleteDentry p n ∈ batch := by
  induction batch with
  | nil => exact fun h => absurd rfl h
  | cons op rest ih =>
    intro s h
    by_cases hop : s.dentry p n = (op.apply s).dentry p n
    · rw [hop] at h
      rcases ih h with ⟨c, hput⟩ | hdelete
      · exact .inl ⟨c, mem_cons_of_mem _ hput⟩
      · exact .inr (mem_cons_of_mem _ hdelete)
    · cases op with
      | putDentry q m c =>
        simp only [apply, dentry, OrderedTable.get_put, dentryKey_inj] at hop
        split at hop
        next heq =>
          obtain ⟨rfl, rfl⟩ := heq
          exact .inl ⟨c, mem_cons_self⟩
        next => exact absurd rfl hop
      | deleteDentry =>
        simp only [apply, dentry, OrderedTable.get_delete, dentryKey_inj] at hop
        split at hop
        next heq =>
          obtain ⟨rfl, rfl⟩ := heq
          exact .inr mem_cons_self
        next => exact absurd rfl hop
      | _ => exact absurd rfl hop

theorem Store.EditsMounted.refl (s : Store) : s.EditsMounted s :=
  fun _ _ h => absurd rfl h

theorem Store.EditsMounted.of_parent {s : Store} {p : InodeId}
    (hinode : s.inode p = some inode) (hmounted : s.forest.Mounted p)
    (hputs : ∀ {q n c}, putDentry q n c ∈ batch → q = p)
    (hdeletes : ∀ {q n}, deleteDentry q n ∈ batch → q = p) :
    s.EditsMounted (s.applyBatch batch) := by
  intro q n hchanged
  have hqp : q = p := by
    rcases dentry_changed hchanged with ⟨c, hput⟩ | hdelete
    · exact hputs hput
    · exact hdeletes hdelete
  rw [hqp]
  refine ⟨fun _ _ => hmounted, fun hnone => ?_⟩
  rw [hinode] at hnone
  cases hnone

/-- A batch that only adds entries, each under an older directory that is mounted
if it is stored. -/
structure Grows (s : Store) (batch : WriteBatch) : Prop where
  free : ∀ {p n c}, BatchOp.putDentry p n c ∈ batch → s.dentry p n = none
  older : ∀ {p n c}, BatchOp.putDentry p n c ∈ batch → p < c
  mounted : ∀ {p n c inode}, BatchOp.putDentry p n c ∈ batch → s.inode p = some inode →
    s.forest.Mounted p
  no_delete : ∀ {p n}, BatchOp.deleteDentry p n ∉ batch
  no_marker : ∀ {i root}, BatchOp.putDetachedRoot i root ∉ batch

namespace Grows

variable {s : Store} {batch : WriteBatch}

theorem mounted_after (h : Grows s batch) (hmounts : (s.applyBatch batch).mounts = s.mounts)
    (hi : s.forest.Mounted i) : (s.applyBatch batch).forest.Mounted i := by
  obtain ⟨r, ⟨m, entry, hmount, hr⟩, hbelow⟩ := hi
  refine ⟨r, ⟨m, entry, by rw [hmounts]; exact hmount, hr⟩, ?_⟩
  refine .mono ?_ _ _ hbelow
  rintro a b ⟨n, hentry⟩
  have hentry : s.dentry a n = some b := hentry
  refine ⟨n, ?_⟩
  by_contra hchanged
  have hchanged : s.dentry a n ≠ (s.applyBatch batch).dentry a n :=
    fun heq => hchanged (heq.symm.trans hentry)
  rcases dentry_changed hchanged with ⟨c, hput⟩ | hdelete
  · rw [h.free hput] at hentry
    cases hentry
  · exact h.no_delete hdelete

theorem new_mounted (h : Grows s batch) (hlinked : Linked s) (hafter : Linked (s.applyBatch batch))
    (hmounts : (s.applyBatch batch).mounts = s.mounts) :
    ∀ i inode, s.inode i = none → (s.applyBatch batch).inode i = some inode →
      (s.applyBatch batch).forest.Mounted i := by
  intro i
  induction i using Nat.strong_induction_on with
  | h i ih =>
    intro inode hfree hinode
    rcases hafter.forest.placed (kind_ne_none.2 ⟨inode, hinode⟩) with
      hroot | hmarker | ⟨p, n, hentry⟩
    · exact Store.IsMountRoot.mounted hroot
    · obtain ⟨marker, hmarker⟩ := Option.ne_none_iff_exists'.1 hmarker
      rcases applyBatch_marker hmarker with hbefore | hput
      · obtain ⟨_, old, hold, _⟩ := hlinked.marked_dir hbefore
        rw [hfree] at hold
        cases hold
      · exact absurd hput h.no_marker
    · rcases applyBatch_dentry hentry with hbefore | hput
      · obtain ⟨old, hold⟩ := hlinked.child_exists hbefore
        rw [hfree] at hold
        cases hold
      · obtain ⟨parent, hparent, _⟩ := hafter.parent_dir hentry
        refine Forest.Mounted.child ?_ ⟨n, hentry⟩
        cases hold : s.inode p with
        | some => exact h.mounted_after hmounts (h.mounted hput hold)
        | none => exact ih p (h.older hput) parent hold hparent

theorem editsMounted (h : Grows s batch) (hlinked : Linked s) (hafter : Linked (s.applyBatch batch))
    (hmounts : (s.applyBatch batch).mounts = s.mounts) : s.EditsMounted (s.applyBatch batch) := by
  intro p n hchanged
  rcases dentry_changed hchanged with ⟨c, hput⟩ | hdelete
  · refine ⟨fun inode hinode => h.mounted hput hinode, fun hnone => ?_⟩
    rw [h.free hput] at hchanged
    obtain ⟨child, hentry⟩ := Option.ne_none_iff_exists'.1 hchanged.symm
    obtain ⟨parent, hparent, _⟩ := hafter.parent_dir hentry
    exact h.new_mounted hlinked hafter hmounts p parent hnone hparent
  · exact absurd hdelete h.no_delete

end Grows

/-! ## A recursive mkdir -/

section Recursive

variable {s : Store} {attrs : InodeAttrs} {t : ℕ} {entries : List RecursiveMkdirEntry}

/-- Where a recursive mkdir creates: the entry is free, its parent is older than
the new directory, and mounted if it is stored. -/
theorem DirectoryPlan.entry_parent {base next next' : InodeId} {parent last : Inode}
    {components : List String} (hlinked : Linked s) (halloc : s.Allocates base)
    (hplan : DirectoryPlan s attrs t parent next components last next' entries) :
    base ≤ next → parent.inodeId < next →
    ((∃ inode, s.inode parent.inodeId = some inode) → s.forest.Mounted parent.inodeId) →
    ∀ entry ∈ entries, s.dentry entry.parentInodeId entry.name = none ∧
      entry.parentInodeId < entry.inode.inodeId ∧
      ((∃ inode, s.inode entry.parentInodeId = some inode) →
        s.forest.Mounted entry.parentInodeId) := by
  induction hplan with
  | done => exact fun _ _ _ _ hentry => by cases hentry
  | enter hdentry hinode _ _ ih =>
    intro hbase _ hparent
    have hid := hlinked.inodeId_eq hinode
    refine ih hbase ?_ fun _ => ?_
    · rw [hid]
      exact (halloc.ahead hinode).trans_le hbase
    · obtain ⟨inode, hstored, _⟩ := hlinked.parent_dir hdentry
      rw [hid]
      exact (hparent ⟨inode, hstored⟩).child ⟨_, hdentry⟩
  | create hdentry _ ih =>
    intro hbase hlt hparent entry hentry
    rcases mem_cons.1 hentry with rfl | hentry
    · exact ⟨hdentry, hlt, hparent⟩
    · refine ih (hbase.trans (Nat.le_succ _)) (Nat.lt_succ_self _) ?_ entry hentry
      rintro ⟨inode, hinode⟩
      exact absurd (halloc.ahead hinode) (not_lt.2 hbase)

theorem DirectoryPlan.grows {rootInodeId next next' : InodeId} {root last : Inode}
    {components : List String} (hlinked : Linked s) (hroot : s.inode rootInodeId = some root)
    (hmount : s.IsMountRoot rootInodeId) (halloc : s.Allocates next)
    (hplan : DirectoryPlan s attrs t root next components last next' entries) :
    Grows s (directoriesOps entries next') := by
  have hid := hlinked.inodeId_eq hroot
  have hparents := hplan.entry_parent hlinked halloc le_rfl
    (hid.symm ▸ halloc.ahead hroot) fun _ => hid.symm ▸ hmount.mounted
  constructor
  · intro p n c hput
    obtain ⟨entry, hmem, rfl, rfl, _⟩ := putDentry_mem_directories hput
    exact (hparents entry hmem).1
  · intro p n c hput
    obtain ⟨entry, hmem, rfl, _, rfl⟩ := putDentry_mem_directories hput
    exact (hparents entry hmem).2.1
  · intro p n c inode hput hinode
    obtain ⟨entry, hmem, rfl, _, _⟩ := putDentry_mem_directories hput
    exact (hparents entry hmem).2.2 ⟨inode, hinode⟩
  · unfold directoriesOps
    split <;> simp [RecursiveMkdirEntry.ops, createEntryOps]
  · unfold directoriesOps
    split <;> simp [RecursiveMkdirEntry.ops, createEntryOps]

end Recursive

/-! ## Every namespace command -/

def Command.EditsNamespace : Command → Prop
  | .createDirectory _ _ _ _ _ => True
  | .createFile _ _ _ _ _ _ _ _ _ _ _ => True
  | .delete _ _ _ _ _ _ _ _ => True
  | .rename _ _ _ _ _ _ _ _ _ => True
  | _ => False

/-- The command names a parent by its id, and that parent has been cut off. -/
def Command.NamesCutOffParent (s : Store) : Command → Prop
  | .createDirectory _ parentInodeId _ _ false => s.CutOff parentInodeId
  | .rename _ srcParentInodeId srcName _ dstParentInodeId dstName _ _ _ =>
    (srcParentInodeId, srcName) ≠ (dstParentInodeId, dstName) ∧
      (s.CutOff srcParentInodeId ∨ s.CutOff dstParentInodeId)
  | _ => False

section Effects

variable {s : Store}

theorem editsMounted_directory_iff {p next : InodeId} {name : String} {attrs : InodeAttrs}
    {t : ℕ} {parent : Inode} (hlinked : Linked s) (hparent : s.inode p = some parent)
    (hfree : s.dentry p name = none) :
    s.EditsMounted (s.applyBatch (createEntryOps p name (Inode.newDir next attrs
      parent.mountId) (touchParent parent t) ++ [.putNextInodeId (next + 1)])) ↔ ¬s.CutOff p := by
  rw [← hlinked.mounted_iff hparent]
  constructor
  · intro h
    refine (h p name ?_).1 parent hparent
    rw [hfree]
    simp [createEntryOps, apply, dentry]
  · intro hmounted
    refine .of_parent hparent hmounted ?_ ?_
    · intro q n c hput
      exact (putDentry_mem_createEntryOps hput).1
    · intro q n hdelete
      simp [createEntryOps] at hdelete

variable {parents : List Inode}

theorem editsMounted_rename_iff {p q x : InodeId} {name name' : String}
    {overwritten : Option InodeId} {srcParent dstParent : Inode}
    (hlinked : Linked s) (hsrc : s.dentry p name = some x)
    (hdst : s.dentry q name' ≠ some x) (hp : s.inode p = some srcParent)
    (hq : s.inode q = some dstParent) :
    s.EditsMounted (s.applyBatch (renameOps p name q name' x overwritten parents)) ↔
      ¬(s.CutOff p ∨ s.CutOff q) := by
  rw [not_or, ← hlinked.mounted_iff hp, ← hlinked.mounted_iff hq]
  have hne : ¬(p = q ∧ name = name') := by
    rintro ⟨rfl, rfl⟩
    exact hdst hsrc
  constructor
  · intro h
    refine ⟨(h p name ?_).1 srcParent hp, (h q name' ?_).1 dstParent hq⟩
    · rw [dentry_renameOps, if_neg hne, if_pos ⟨rfl, rfl⟩, hsrc]
      exact Option.some_ne_none x
    · rw [dentry_renameOps, if_pos ⟨rfl, rfl⟩]
      exact hdst
  · rintro ⟨hmountedSrc, hmountedDst⟩ a n hchanged
    rw [dentry_renameOps] at hchanged
    split at hchanged
    next heq =>
      rw [heq.1]
      exact ⟨fun _ _ => hmountedDst, fun hnone => by rw [hq] at hnone; cases hnone⟩
    next =>
      split at hchanged
      next heq =>
        rw [heq.1]
        exact ⟨fun _ _ => hmountedSrc, fun hnone => by rw [hp] at hnone; cases hnone⟩
      next => exact absurd rfl hchanged

theorem RenameParents.stored {t : ℕ} {p q : InodeId}
    (h : RenameParents s t p q parents) : (∃ srcParent, s.inode p = some srcParent) ∧
      ∃ dstParent, s.inode q = some dstParent := by
  cases h with
  | same heq hparent =>
    subst heq
    exact ⟨⟨_, hparent⟩, _, hparent⟩
  | different _ hsrc hdst => exact ⟨⟨_, hsrc⟩, _, hdst⟩

theorem Effect.editsMounted_iff {u : Store} {command : Command} {success : ApplySuccess}
    (hlinked : Linked s) (h : Effect s command success batch)
    (hcommand : command.EditsNamespace) (hbuilt : command.BuiltIn u)
    (hmount : s.IsMountRoot rootInodeId) :
    s.EditsMounted (s.applyBatch batch) ↔ ¬command.NamesCutOffParent s := by
  have hdelete : ∀ {root components parent name child ops},
      DeleteTarget s root components parent name child →
      (∀ {q n c}, putDentry q n c ∉ ops) →
      (∀ {q n}, deleteDentry q n ∈ ops → q = parent.inodeId) →
      s.EditsMounted (s.applyBatch ops) := by
    intro root components parent name child ops htarget hputs hdeletes
    exact .of_parent htarget.parent_eq.1 htarget.mounted (fun hput => absurd hput hputs) hdeletes
  cases h with
  | directoryMade hparent _ hfree => exact editsMounted_directory_iff hlinked hparent hfree
  | directoriesMade hroot hdir hcomponents halloc hplan =>
    have heffect := Effect.directoriesMade hroot hdir hcomponents halloc hplan
    refine iff_of_true ?_ id
    rw [show _ = rootInodeId from hbuilt.1] at hroot
    exact (hplan.grows hlinked hroot hmount halloc).editsMounted hlinked
      (heffect.linked hlinked trivial) (heffect.mounts_eq hlinked.mount_exists)
  | fileMade _ _ _ _ hparent _ _ hroom =>
    refine iff_of_true (.of_parent hparent.parent_eq.1 hparent.mounted ?_ ?_) id
    · intro q n c hput
      exact (putDentry_mem_createFileOps hroom hput).1
    · intro q n hput
      cases hroom <;> simp [createFileOps, createEntryOps, recordOps, evictionOps] at hput
  | fileReplayed => exact iff_of_true (.refl s) id
  | unlinked htarget | directoryRemoved htarget =>
    exact iff_of_true (hdelete htarget (by simp) (by simp)) id
  | directoryDetached htarget =>
    exact iff_of_true (hdelete htarget (by simp) (by simp)) id
  | renameUnchanged hsrc hdst =>
    obtain ⟨rfl, rfl⟩ := hlinked.entry_unique hsrc hdst
    refine iff_of_true (fun a n hchanged => absurd ?_ hchanged) fun h => h.1 rfl
    rw [dentry_renameOps]
    split
    next heq => rw [heq.1, heq.2, hsrc]
    next => rfl
  | @renamed _ p q x name name' expectedDst _ _ _ _ hsrc hdst _ hover hparents =>
    obtain ⟨⟨srcParent, hp⟩, dstParent, hq⟩ := hparents.stored
    have hne : s.dentry q name' ≠ some x := by
      intro heq
      exact (hover x (hdst.symm.trans heq)).1 rfl
    have hentries : (p, name) ≠ (q, name') := by
      rintro ⟨⟩
      exact hne hsrc
    rw [editsMounted_rename_iff hlinked hsrc hne hp hq]
    exact not_congr ⟨fun h => ⟨hentries, h⟩, fun h => h.2⟩
  | _ => exact hcommand.elim

end Effects

/-- A client command that succeeds edits mounted directories only, exactly if it
does not name a parent that has been cut off since it was built. -/
theorem edits_mounted_unless_cutOff {t : ℕ} {group : GroupName} {past : Past} {s s' : Store}
    {entry : LogApply} (hrun : Run Applies FromLeader (Store.bootstrapped t group) past s)
    (hentry : FromLeader past s entry) (hcommand : entry.command.EditsNamespace)
    (hstep : Applies s entry s') (hsuccess : entry.success ≠ none) :
    s.EditsMounted s' ↔ ¬entry.command.NamesCutOffParent s := by
  rcases hstep.cases with ⟨success, batch, _, heffect, rfl⟩ | ⟨hnone, _⟩
  · obtain ⟨u, _, hbuilt⟩ := hentry.builtIn hrun
    refine heffect.editsMounted_iff (linked_of_leaderRun hrun) hcommand hbuilt ?_
    refine ⟨rootMountId, rootMountEntry group, ?_, rfl⟩
    rw [mounts_of_run hrun]
    rfl
  · exact absurd hnone hsuccess

/-! ## Two stale commands -/

/-- `mkdir /a`, then `mkdir /c`; `rename /a /b` was built in between. -/
def renameLateLog : List Command :=
  [.createDirectory 2 1 ["c"] .new false, .createDirectory 1 1 ["a"] .new false]

def renameLate : Command := .rename 3 1 "a" 2 1 "b" none none 0

theorem edits_mounted_unless_cutOff_renameLate :
    let run := healthyRun (bootstrapped 0 rootGroup) renameLateLog
    let outcome := run.2.applied renameLate
    Run Applies FromLeader (bootstrapped 0 rootGroup) run.1 run.2 ∧
      outcome.2.store.dentry 1 "b" = some 2 ∧ run.2.EditsMounted outcome.2.store := by
  intro run outcome
  have hrun : Run Applies FromLeader (bootstrapped 0 rootGroup) run.1 run.2 := by
    refine healthyRun_next (healthyRun_next .start ?_) ?_
    · exact ⟨_, self_mem_visited, @createDirectory _ "/a" false 1 _ rfl⟩
    · exact ⟨_, self_mem_visited, @createDirectory _ "/c" false 2 _ rfl⟩
  have hbuilt : FromLeader run.1 run.2 ⟨renameLate, .initial, outcome.1⟩ :=
    ⟨_, mem_cons_of_mem _ mem_cons_self,
      @rename _ "/a" "/b" 0 3 _ rfl⟩
  have hroot : run.2.forest.Mounted 1 :=
    Store.IsMountRoot.mounted ⟨rootMountId, rootMountEntry rootGroup, rfl, rfl⟩
  have hattached := ((linked_of_leaderRun hrun).mounted_iff rfl).1 hroot
  refine ⟨hrun, rfl, (edits_mounted_unless_cutOff hrun hbuilt trivial
    ⟨.healthy run.2, outcome.2, rfl, rfl, rfl⟩ nofun).2 ?_⟩
  rintro ⟨_, hcut | hcut⟩
  · exact hattached hcut
  · exact hattached hcut

/-- `mkdir /a`, then the recursive delete of `/a`; `mkdir /a/b` was built in
between. -/
def mkdirLateLog : List Command :=
  [.delete 2 1 1 1 ["a"] 2 none true, .createDirectory 1 1 ["a"] .new false]

def mkdirLate : Command := .createDirectory 3 2 ["b"] .new false

/-- The late mkdir succeeds in a directory that is already detached. -/
theorem mkdirLate_edits_detached :
    let run := healthyRun (bootstrapped 0 rootGroup) mkdirLateLog
    let outcome := run.2.applied mkdirLate
    Run Applies FromLeader (bootstrapped 0 rootGroup) run.1 run.2 ∧
      FromLeader run.1 run.2 ⟨mkdirLate, .initial, outcome.1⟩ ∧
      mkdirLate.EditsNamespace ∧
      Applies run.2 ⟨mkdirLate, .initial, outcome.1⟩ outcome.2.store ∧
      LogApply.success ⟨mkdirLate, .initial, outcome.1⟩ ≠ none ∧
      ¬run.2.EditsMounted outcome.2.store := by
  intro run outcome
  have hrun : Run Applies FromLeader (bootstrapped 0 rootGroup) run.1 run.2 := by
    refine healthyRun_next (healthyRun_next .start ?_) ?_
    · exact ⟨_, self_mem_visited, @createDirectory _ "/a" false 1 _ rfl⟩
    · exact ⟨_, self_mem_visited, @delete _ "/a" true 2 _ rfl⟩
  refine ⟨hrun, ⟨_, mem_cons_of_mem _ mem_cons_self,
    @createDirectory _ "/a/b" false 3 _ rfl⟩, trivial,
    ⟨.healthy run.2, outcome.2, rfl, rfl, rfl⟩, nofun, fun hedits => ?_⟩
  have hmounted : run.2.forest.Mounted 2 := (hedits 2 "b" nofun).1 _ rfl
  refine ((linked_of_leaderRun hrun).mounted_iff rfl).1 hmounted (.inl ⟨2, nofun, .refl⟩)

end Beryl
