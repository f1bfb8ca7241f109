import Beryl.Evolution
import Beryl.Teardown

/-!
# Commands as operations on the forest

The namespace tables refine a forest: what a command writes to the inode, dentry
and marker tables is a sequence of the five forest operations.  Creating entries
is one `create` each, a delete is a `remove` or a `detach`, a rename is a `move`
after the `remove` of what it replaces, and a reclamation removes or detaches
children one by one before it retires the roots it has emptied.
-/

namespace Beryl

open Forest Store BatchOp OrderedTable DetachedRootReclaimEntry List

/-! ## The forest after one write -/

section Writes

variable (s : Store)

@[simp] theorem forest_putInode (inode : Inode) : (apply s (.putInode inode)).forest =
      s.forest.setKind inode.inodeId (some inode.nodeKind) := by
  ext i k
  · simp only [forest, apply, Store.inode, get_put, setKind]
    split <;> simp
  all_goals rfl

@[simp] theorem forest_deleteInode (i : InodeId) :
    (BatchOp.apply s (.deleteInode i)).forest = s.forest.setKind i none := by
  ext j k
  · simp only [forest, apply, inode, get_delete, setKind]
    split <;> simp
  all_goals rfl

@[simp] theorem forest_putDentry (p : InodeId) (n : String) (c : InodeId) :
    (BatchOp.apply s (.putDentry p n c)).forest = s.forest.setChild p n (some c) := by
  ext q m k
  · rfl
  · simp only [forest, apply, dentry, get_put, dentryKey_inj, setChild]
  all_goals rfl

@[simp] theorem forest_deleteDentry (p : InodeId) (n : String) :
    (BatchOp.apply s (.deleteDentry p n)).forest = s.forest.setChild p n none := by
  ext q m k
  · rfl
  · simp only [forest, apply, dentry, get_delete, dentryKey_inj, setChild]
  all_goals rfl

@[simp] theorem forest_putDetachedRoot (i : InodeId) (root : DetachedRoot) :
    (BatchOp.apply s (.putDetachedRoot i root)).forest = s.forest.mark i := by
  ext j k
  · rfl
  · rfl
  · rfl
  · simp only [forest, apply, marker, get_put, mark]
    split <;> simp_all

@[simp] theorem forest_deleteDetachedRoot (i : InodeId) :
    (BatchOp.apply s (.deleteDetachedRoot i)).forest = s.forest.unmark i := by
  ext j k
  · rfl
  · rfl
  · rfl
  · simp only [forest, apply, marker, get_delete, unmark]
    split <;> simp_all

def BatchOp.KeepsForest : BatchOp → Prop
  | putMount _ => False
  | putInode _ => False
  | deleteInode _ => False
  | putDentry _ _ _ => False
  | deleteDentry _ _ => False
  | putDetachedRoot _ _ => False
  | deleteDetachedRoot _ => False
  | _ => True

theorem forest_of_keepsForest (op : BatchOp) (h : op.KeepsForest) :
    (op.apply s).forest = s.forest := by
  cases op <;> first | exact h.elim | rfl

theorem forest_applyBatch_of_keepsForest (batch : WriteBatch)
    (h : ∀ op ∈ batch, op.KeepsForest) : (s.applyBatch batch).forest = s.forest := by
  induction batch generalizing s with
  | nil => rfl
  | cons op rest ih =>
    rw [applyBatch_cons, ih _ fun op hop => h op (mem_cons_of_mem _ hop)]
    exact forest_of_keepsForest s op (h op mem_cons_self)

end Writes

/-! ## Creating entries -/

section Create

variable {s : Store} {mayMove : Forest InodeId String → InodeId → InodeId → Prop}
  {inode parent : Inode} {t : ℕ} {name : String} {i next next' : InodeId}

theorem nodeKind_of_dir (h : inode.kind = .dir) :
    inode.nodeKind = .branch := Inode.nodeKind_eq_branch.2 h

theorem setKind_touched {F : Forest InodeId String}
    (h : F.kind parent.inodeId = some parent.nodeKind) :
    F.setKind (touchParent parent t).inodeId (some (touchParent parent t).nodeKind) = F :=
  setKind_self h

theorem forest_createEntryOps (hparent : s.forest.kind parent.inodeId = some parent.nodeKind)
    (hne : parent.inodeId ≠ inode.inodeId) : (s.applyBatch (createEntryOps parent.inodeId name inode
      (touchParent parent t))).forest =
      s.forest.create parent.inodeId name inode.inodeId inode.nodeKind := by
  simp only [createEntryOps, applyBatch_cons, applyBatch_nil, forest_putInode, forest_putDentry]
  rw [setKind_touched]
  · rfl
  · simpa [setKind, hne] using hparent

theorem step_createEntryOps (hparent : s.forest.kind parent.inodeId = some parent.nodeKind)
    (hdir : parent.kind = .dir) (hfree : s.dentry parent.inodeId name = none)
    (hnew : s.forest.kind inode.inodeId = none) :
    Step mayMove s.forest (s.applyBatch (createEntryOps parent.inodeId name inode
      (touchParent parent t))).forest := by
  have hne : parent.inodeId ≠ inode.inodeId := by
    intro heq
    rw [heq, hnew] at hparent
    cases hparent
  rw [forest_createEntryOps hparent hne]
  rw [nodeKind_of_dir hdir] at hparent
  exact .create hparent hfree hnew

theorem Store.kind_of_inode (h : s.inode i = some inode) :
    s.forest.kind i = some inode.nodeKind := by
  simp [forest, h]

theorem Store.kind_eq_none : s.forest.kind i = none ↔ s.inode i = none := by
  simp [forest]

theorem Store.Allocates.free (h : s.Allocates next) (hle : next ≤ i) : s.inode i = none := by
  cases hinode : s.inode i with
  | none => rfl
  | some => exact absurd (h.ahead hinode) (not_lt.2 hle)

theorem WellFormed.no_child (h : s.forest.WellFormed) (hnone : s.inode i = none) :
    s.dentry i name = none := by
  cases hdentry : s.dentry i name with
  | none => rfl
  | some =>
    have hbranch : s.forest.kind i = some .branch := h.parent_branch hdentry
    rw [kind_eq_none.2 hnone] at hbranch
    cases hbranch

theorem forest_newDirOps (hparent : s.forest.kind parent.inodeId = some parent.nodeKind)
    (hlt : parent.inodeId < next) (name : String) (attrs : InodeAttrs) (t : ℕ) :
    (s.applyBatch (createEntryOps parent.inodeId name
      (Inode.newDir next attrs parent.mountId) (touchParent parent t))).forest =
      s.forest.create parent.inodeId name next .branch :=
  forest_createEntryOps hparent hlt.ne

structure FreshFrom (s : Store) (next : InodeId) : Prop where
  kind_eq : ∀ {i}, next ≤ i → s.forest.kind i = none
  dentry_eq : ∀ {i name}, next ≤ i → s.dentry i name = none

theorem Store.Allocates.freshFrom (h : s.Allocates next) (hforest : s.forest.WellFormed) :
    FreshFrom s next where
  kind_eq hle := kind_eq_none.2 (h.free hle)
  dentry_eq hle := WellFormed.no_child hforest (h.free hle)

theorem FreshFrom.mono (h : FreshFrom s next) (hle : next ≤ next') : FreshFrom s next' where
  kind_eq hi := h.kind_eq (hle.trans hi)
  dentry_eq hi := h.dentry_eq (hle.trans hi)

/-- What a new directory leaves: it is there, it is empty, and the ids after it
are still fresh. -/
theorem FreshFrom.create {s' : Store} {p : InodeId} {kind : NodeKind} (h : FreshFrom s next)
    (hlt : p < next) (hforest : s'.forest = s.forest.create p name next kind) :
    FreshFrom s' (next + 1) ∧ s'.forest.kind next = some kind ∧
      ∀ name', s'.dentry next name' = none := by
  have hentries : ∀ i name', i ≠ p → s'.dentry i name' = s.dentry i name' := by
    intro i name' hi
    have hread : s'.forest.child i name' = s.forest.child i name' := by
      rw [hforest]
      simp [Forest.create, setChild, setKind, hi]
    exact hread
  have hkinds : ∀ i, i ≠ next → s'.forest.kind i = s.forest.kind i := by
    intro i hi
    rw [hforest]
    simp [Forest.create, setChild, setKind, hi]
  refine ⟨⟨fun {i} hi => ?_, fun {i name'} hi => ?_⟩, ?_, fun name' => ?_⟩
  · have hnext : next < i := hi
    rw [hkinds i hnext.ne']
    exact h.kind_eq hnext.le
  · have hnext : next < i := hi
    rw [hentries i name' (hlt.trans hnext).ne']
    exact h.dentry_eq hnext.le
  · rw [hforest]
    simp [Forest.create, setChild, setKind]
  · rw [hentries next name' hlt.ne']
    exact h.dentry_eq le_rfl

variable {components : List String} {entries : List RecursiveMkdirEntry} {attrs : InodeAttrs}

/-- Below a directory that the store does not have yet, a recursive mkdir creates
every component. -/
theorem DirectoryPlan.fresh_steps {last : Inode}
    (hplan : DirectoryPlan s attrs t parent next components last next' entries) :
    ∀ u : Store, parent.kind = .dir → parent.inodeId < next →
      u.forest.kind parent.inodeId = some parent.nodeKind →
      (∀ name, s.dentry parent.inodeId name = none) →
      (∀ name, u.dentry parent.inodeId name = none) → FreshFrom s next → FreshFrom u next →
      Steps mayMove u.forest (u.applyBatch (entries.flatMap RecursiveMkdirEntry.ops)).forest := by
  induction hplan with
  | done => exact fun u _ _ _ _ _ _ _ => .refl
  | enter hdentry =>
    intro u _ _ _ hnone
    rw [hnone] at hdentry
    cases hdentry
  | @create parent _ _ _ name _ _ hdentry _ ih =>
    intro u hdir hlt hkind _ hnone hfresh hfresh'
    rw [flatMap_cons, applyBatch_append]
    obtain ⟨hafter, hchild, hempty⟩ := hfresh'.create hlt
      (forest_newDirOps hkind hlt name (InodeAttrs.initializeAt attrs t) t)
    refine .head ?_ (ih _ rfl (Nat.lt_succ_self _) hchild
      (fun _ => hfresh.dentry_eq le_rfl) hempty (hfresh.mono (Nat.le_succ _)) hafter)
    exact step_createEntryOps hkind hdir (hnone _) (hfresh'.kind_eq le_rfl)

theorem DirectoryPlan.steps {last : Inode} (hkeyed : Keyed s) (hforest : s.forest.WellFormed)
    (hplan : DirectoryPlan s attrs t parent next components last next' entries) :
    s.inode parent.inodeId = some parent → parent.kind = .dir → s.Allocates next →
      Steps mayMove s.forest (s.applyBatch (entries.flatMap RecursiveMkdirEntry.ops)).forest := by
  induction hplan with
  | done => exact fun _ _ _ => .refl
  | enter _ hinode hdir _ ih =>
    intro _ _ halloc
    refine ih ?_ hdir halloc
    rw [hkeyed.inodeId_eq hinode]
    exact hinode
  | @create parent _ _ _ name _ _ hdentry htail _ =>
    intro hparent hdir halloc
    rw [flatMap_cons, applyBatch_append]
    have hkind := kind_of_inode hparent
    have hlt := halloc.ahead hparent
    have hfresh := halloc.freshFrom hforest
    obtain ⟨hafter, hchild, hempty⟩ := hfresh.create hlt
      (forest_newDirOps hkind hlt name (InodeAttrs.initializeAt attrs t) t)
    refine .head ?_ (htail.fresh_steps _ rfl (Nat.lt_succ_self _) hchild
      (fun _ => hfresh.dentry_eq le_rfl) hempty (hfresh.mono (Nat.le_succ _)) hafter)
    exact step_createEntryOps hkind hdir hdentry (hfresh.kind_eq le_rfl)

end Create

/-! ## Removing and moving entries -/

section Remove

variable {s : Store} {mayMove : Forest InodeId String → InodeId → InodeId → Prop}
  {parent : Inode} {name : String} {c : InodeId} {t : ℕ}

theorem forest_unlinkOps (hparent : s.inode parent.inodeId = some parent)
    (hne : parent.inodeId ≠ c) : (s.applyBatch [.deleteDentry parent.inodeId name, .deleteInode c,
      .putInode (touchParent parent t)]).forest = s.forest.remove parent.inodeId name c := by
  simp only [applyBatch_cons, applyBatch_nil, forest_deleteDentry, forest_deleteInode,
    forest_putInode]
  rw [setKind_touched]
  · rfl
  · simpa [setKind, setChild, hne] using kind_of_inode hparent

theorem forest_detachOps {root : DetachedRoot} (hparent : s.inode parent.inodeId = some parent) :
    (s.applyBatch [.deleteDentry parent.inodeId name, .putInode (touchParent parent t),
      .putDetachedRoot c root]).forest = s.forest.detach parent.inodeId name c := by
  simp only [applyBatch_cons, applyBatch_nil, forest_deleteDentry, forest_putDetachedRoot,
    forest_putInode]
  rw [setKind_touched]
  · rfl
  · simpa [setChild] using kind_of_inode hparent

theorem WellFormed.file_no_child (h : s.forest.WellFormed) {i : InodeId} {inode : Inode}
    {file : FileData} (hinode : s.inode i = some inode) (hkind : inode.kind = .file file) :
    s.dentry i name = none := by
  cases hdentry : s.dentry i name with
  | none => rfl
  | some =>
    obtain ⟨dir, hdir, hdirKind⟩ := kind_eq_branch.1 (h.parent_branch hdentry)
    rw [hinode] at hdir
    cases hdir
    rw [hkind] at hdirKind
    cases hdirKind

theorem step_unlinkOps (hparent : s.inode parent.inodeId = some parent)
    (hentry : s.dentry parent.inodeId name = some c) (hempty : ∀ name, s.dentry c name = none) :
    Step mayMove s.forest (s.applyBatch [.deleteDentry parent.inodeId name,
      .deleteInode c, .putInode (touchParent parent t)]).forest := by
  have hne : parent.inodeId ≠ c := by
    rintro rfl
    rw [hempty] at hentry
    cases hentry
  rw [forest_unlinkOps hparent hne]
  exact .remove hentry hempty

theorem forest_putInodes (parents : List Inode) : ∀ s : Store, (∀ parent ∈ parents,
      s.forest.kind parent.inodeId = some parent.nodeKind) →
    (s.applyBatch (parents.map putInode)).forest = s.forest := by
  induction parents with
  | nil => exact fun s _ => rfl
  | cons parent rest ih =>
    intro s hkinds
    have hself : (apply s (.putInode parent)).forest = s.forest := by
      rw [forest_putInode]
      exact setKind_self (hkinds parent mem_cons_self)
    rw [map_cons, applyBatch_cons, ih, hself]
    intro other hother
    rw [hself]
    exact hkinds other (mem_cons_of_mem _ hother)

variable {p q x : InodeId} {parents : List Inode} {name' : String}

theorem RenameParents.mem_cases (hkeyed : Keyed s) (h : RenameParents s t p q parents)
    (hmem : parent ∈ parents) : (parent.inodeId = p ∨ parent.inodeId = q) ∧
      s.forest.kind parent.inodeId = some parent.nodeKind := by
  have htouched : ∀ {i stored}, s.inode i = some stored →
      (touchParent stored t).inodeId = i ∧
        s.forest.kind (touchParent stored t).inodeId =
          some (touchParent stored t).nodeKind := by
    intro i stored hstored
    have hid : stored.inodeId = i := hkeyed.inodeId_eq hstored
    have hkind := kind_of_inode hstored
    rw [← hid] at hkind
    exact ⟨hid, hkind⟩
  cases h with
  | same _ hparent =>
    rw [mem_singleton.1 hmem]
    exact ⟨.inl (htouched hparent).1, (htouched hparent).2⟩
  | different _ hsrc hdst =>
    rcases mem_cons.1 hmem with rfl | hmem
    · exact ⟨.inl (htouched hsrc).1, (htouched hsrc).2⟩
    · rw [mem_singleton.1 hmem]
      exact ⟨.inr (htouched hdst).1, (htouched hdst).2⟩

theorem Overwritable.no_child {src : Inode} {y : InodeId} (h : Overwritable s src y)
    (hforest : s.forest.WellFormed) (name : String) : s.dentry y name = none := by
  obtain ⟨dst, hdst, _, _, hempty⟩ := h.exists_target
  cases hkind : dst.kind with
  | dir => exact hempty hkind name
  | file => exact WellFormed.file_no_child hforest hdst hkind

theorem forest_moveOps
    (hkinds : ∀ parent ∈ parents, s.forest.kind parent.inodeId = some parent.nodeKind) :
    (s.applyBatch (renameOps p name q name' x none parents)).forest =
      s.forest.move p name q name' x := by
  unfold renameOps
  rw [nil_append, applyBatch_append, forest_putInodes]
  · simp only [applyBatch_cons, applyBatch_nil, forest_deleteDentry, forest_putDentry]
    rfl
  · intro parent hparent
    simp only [applyBatch_cons, applyBatch_nil, forest_deleteDentry, forest_putDentry]
    exact hkinds parent hparent

theorem forest_replaceOps {y : InodeId}
    (hkinds : ∀ parent ∈ parents, parent.inodeId ≠ y ∧ s.forest.kind parent.inodeId = some
      parent.nodeKind) : (s.applyBatch (renameOps p name q name' x (some y) parents)).forest =
      (s.forest.remove q name' y).move p name q name' x := by
  have hsplit : renameOps p name q name' x (some y) parents =
      [.deleteInode y, .deleteDentry q name'] ++
        renameOps p name q name' x none parents := rfl
  rw [hsplit, applyBatch_append, forest_moveOps]
  · simp only [applyBatch_cons, applyBatch_nil, forest_deleteInode, forest_deleteDentry]
    rfl
  · intro parent hparent
    obtain ⟨hne, hkind⟩ := hkinds parent hparent
    simpa [setKind, setChild, hne] using hkind

theorem dentry_putInodes (s : Store) (parents : List Inode) (a : InodeId) (n : String) :
    (s.applyBatch (parents.map putInode)).dentry a n = s.dentry a n := by
  induction parents generalizing s with
  | nil => rfl
  | cons parent rest ih =>
    rw [map_cons, applyBatch_cons, ih]
    rfl

theorem dentry_renameOps {overwritten : Option InodeId} (a : InodeId) (n : String) :
    (s.applyBatch (renameOps p name q name' x overwritten parents)).dentry a n =
      if a = q ∧ n = name' then some x else if a = p ∧ n = name then none else s.dentry a n := by
  unfold renameOps
  rw [applyBatch_append, dentry_putInodes]
  cases overwritten with
  | none =>
    simp [apply, dentry, get_put, get_delete, dentryKey_inj]
  | some =>
    simp only [cons_append, nil_append, applyBatch_cons, applyBatch_nil, apply, dentry,
      get_put, get_delete, dentryKey_inj]
    split
    next => rfl
    next => rfl

/-- A rename is a `move`, after the `remove` of what it replaces. -/
theorem steps_renameOps {expectedDst : Option InodeId} {src : Inode} (hkeyed : Keyed s)
    (hforest : s.forest.WellFormed) (hsrc : s.dentry p name = some x)
    (hdst : s.dentry q name' = expectedDst)
    (hover : ∀ y, expectedDst = some y → y ≠ x ∧ Overwritable s src y)
    (hparents : RenameParents s t p q parents) (hdir : s.forest.kind q = some .branch)
    (hmay : ∀ F : Forest InodeId String, (∀ a b, F.Edge a b → s.forest.Edge a b) → mayMove F x q) :
    Steps mayMove s.forest
      (s.applyBatch (renameOps p name q name' x expectedDst parents)).forest := by
  cases expectedDst with
  | none =>
    rw [forest_moveOps fun parent hparent => (hparents.mem_cases hkeyed hparent).2]
    exact .single (.move hsrc hdst hdir (hmay _ fun _ _ h => h))
  | some y =>
    obtain ⟨hyx, hoverwritable⟩ := hover y rfl
    have hempty := hoverwritable.no_child hforest
    have hpy : p ≠ y := by
      rintro rfl
      rw [hempty] at hsrc
      cases hsrc
    have hqy : q ≠ y := by
      rintro rfl
      rw [hempty] at hdst
      cases hdst
    have hentry : (s.forest.remove q name' y).child p name = some x := by
      simp only [remove, setChild, setKind]
      rw [if_neg]
      · exact hsrc
      · rintro ⟨rfl, rfl⟩
        rw [hsrc] at hdst
        exact hyx (Option.some.inj hdst).symm
    rw [forest_replaceOps]
    · refine .head (.remove hdst hempty) (.single (.move hentry ?_ ?_ (hmay _ ?_)))
      · simp [remove, setChild]
      · simpa [remove, setChild, setKind, hqy] using hdir
      · rintro a b ⟨l, hl⟩
        refine ⟨l, ?_⟩
        simp only [remove, setChild, setKind] at hl
        split at hl
        · cases hl
        · exact hl
    · intro parent hparent
      obtain ⟨hid, hkind⟩ := hparents.mem_cases hkeyed hparent
      refine ⟨?_, hkind⟩
      rcases hid with hid | hid
      · rw [hid]
        exact hpy
      · rw [hid]
        exact hqy

end Remove

/-! ## Reclaiming detached directories -/

section Reclaim

variable {s : Store}

def DetachedRootReclaimEntry.nodeKind (entry : DetachedRootReclaimEntry) : NodeKind :=
  match entry.childDetachedRoot with
  | some _ => .branch
  | none => .leaf

structure DetachedRootReclaimEntry.Present (entry : DetachedRootReclaimEntry)
    (s : Store) : Prop where
  dentry_eq : s.dentry entry.parentInodeId entry.name = some entry.inodeId
  kind_eq : s.forest.kind entry.inodeId = some entry.nodeKind

variable {entry : DetachedRootReclaimEntry}

theorem ReclaimableEntry.marked (h : ReclaimableEntry s entry) :
    s.forest.detached entry.parentInodeId := by
  obtain ⟨root, _, hmarker, _⟩ := h.exists_child
  simp [forest, hmarker]

theorem ReclaimableEntry.present (h : ReclaimableEntry s entry) : entry.Present s := by
  obtain ⟨root, child, _, hdentry, _, hchild, _, hroot⟩ := h.exists_child
  refine ⟨hdentry, ?_⟩
  rw [kind_of_inode hchild]
  unfold nodeKind Inode.nodeKind
  rw [hroot]
  cases child.kind <;> simp

theorem forest_reclaimEntryOps (entry : DetachedRootReclaimEntry) :
    (s.applyBatch entry.ops).forest =
      match entry.nodeKind with
      | .branch => s.forest.detach entry.parentInodeId entry.name entry.inodeId
      | .leaf => s.forest.remove entry.parentInodeId entry.name entry.inodeId := by
  unfold ops nodeKind
  cases entry.childDetachedRoot with
  | some =>
    simp only [applyBatch_cons, applyBatch_nil, forest_deleteDentry, forest_putDetachedRoot]
    rfl
  | none =>
    simp only [applyBatch_cons, applyBatch_nil, forest_deleteDentry, forest_deleteInode]
    rfl

theorem DetachedRootReclaimEntry.Present.tear (h : entry.Present s)
    (hmarked : s.forest.detached entry.parentInodeId) :
    Tear s.forest (s.applyBatch entry.ops).forest := by
  rw [forest_reclaimEntryOps]
  have hkind := h.kind_eq
  cases hentry : entry.nodeKind with
  | branch =>
    rw [hentry] at hkind
    exact .detach hmarked h.dentry_eq hkind
  | leaf =>
    rw [hentry] at hkind
    exact .remove hmarked h.dentry_eq hkind

theorem dentry_reclaimEntryOps (entry : DetachedRootReclaimEntry) (p : InodeId) (n : String) :
    (s.applyBatch entry.ops).dentry p n =
      if p = entry.parentInodeId ∧ n = entry.name then none else s.dentry p n := by
  have hread : (s.applyBatch entry.ops).forest.child p n =
      if p = entry.parentInodeId ∧ n = entry.name then none else s.forest.child p n := by
    rw [forest_reclaimEntryOps]
    cases entry.nodeKind with
    | branch | leaf => rfl
  exact hread

theorem detached_reclaimEntryOps (entry : DetachedRootReclaimEntry) {i : InodeId}
    (h : s.forest.detached i) : (s.applyBatch entry.ops).forest.detached i := by
  rw [forest_reclaimEntryOps]
  cases entry.nodeKind with
  | branch => exact .inr h
  | leaf => exact h

theorem DetachedRootReclaimEntry.Present.after {other : DetachedRootReclaimEntry}
    (h : entry.Present s) (hother : other.Present s) (hne : other.inodeId ≠ entry.inodeId) :
    other.Present (s.applyBatch entry.ops) where
  dentry_eq := by
    rw [dentry_reclaimEntryOps, if_neg]
    · exact hother.dentry_eq
    · rintro ⟨hparent, hname⟩
      have heq := hother.dentry_eq
      rw [hparent, hname, h.dentry_eq] at heq
      exact hne (Option.some.inj heq).symm
  kind_eq := by
    rw [forest_reclaimEntryOps, ← hother.kind_eq]
    cases entry.nodeKind with
    | branch => rfl
    | leaf => simp [remove, setChild, setKind, hne]

theorem detached_reclaimEntries (entries : List DetachedRootReclaimEntry) {i : InodeId} :
    ∀ s : Store, s.forest.detached i → (s.applyBatch (entries.flatMap ops)).forest.detached i := by
  induction entries with
  | nil => exact fun s h => h
  | cons entry rest ih =>
    intro s h
    rw [flatMap_cons, applyBatch_append]
    exact ih _ (detached_reclaimEntryOps entry h)

theorem tears_reclaimEntries (entries : List DetachedRootReclaimEntry) :
    ∀ s : Store, (∀ entry ∈ entries, entry.Present s ∧ s.forest.detached entry.parentInodeId) →
      (entries.map inodeId).Nodup → Tears s.forest (s.applyBatch (entries.flatMap ops)).forest := by
  induction entries with
  | nil => exact fun s _ _ => .refl
  | cons entry rest ih =>
    intro s hentries hnodup
    rw [map_cons, nodup_cons] at hnodup
    obtain ⟨hentry, hmarked⟩ := hentries entry mem_cons_self
    rw [flatMap_cons, applyBatch_append]
    refine .head (hentry.tear hmarked) (ih _ (fun other hother => ?_) hnodup.2)
    obtain ⟨hpresent, hmarked'⟩ := hentries other (mem_cons_of_mem _ hother)
    refine ⟨hentry.after hpresent fun heq => ?_, detached_reclaimEntryOps entry hmarked'⟩
    exact hnodup.1 (heq ▸ mem_map_of_mem hother)

theorem dentry_reclaimEntries (entries : List DetachedRootReclaimEntry) {p c : InodeId}
    {n : String} : ∀ s : Store, (s.applyBatch (entries.flatMap ops)).dentry p n =
        some c → s.dentry p n = some c ∧
      ∀ entry ∈ entries, ¬(entry.parentInodeId = p ∧ entry.name = n) := by
  induction entries with
  | nil => exact fun s h => ⟨h, fun _ hentry => absurd hentry not_mem_nil⟩
  | cons entry rest ih =>
    intro s h
    rw [flatMap_cons, applyBatch_append] at h
    obtain ⟨hread, hrest⟩ := ih _ h
    rw [dentry_reclaimEntryOps] at hread
    split at hread
    · cases hread
    next hne =>
      refine ⟨hread, fun other hother => ?_⟩
      rcases mem_cons.1 hother with rfl | hother
      · rintro ⟨rfl, rfl⟩
        exact hne ⟨rfl, rfl⟩
      · exact hrest other hother

theorem forest_completionOps (root : InodeId) :
    (s.applyBatch [.deleteInode root, .deleteDetachedRoot root]).forest = s.forest.retire root := by
  simp only [applyBatch_cons, applyBatch_nil, forest_deleteInode, forest_deleteDetachedRoot]
  rfl

theorem tears_completionOps (roots : List InodeId) :
    ∀ s : Store, (∀ root ∈ roots, s.forest.detached root ∧
        ∀ name, s.forest.child root name = none) → roots.Nodup →
      Tears s.forest (s.applyBatch (completionOps roots)).forest := by
  induction roots with
  | nil => exact fun s _ _ => .refl
  | cons root rest ih =>
    intro s hroots hnodup
    rw [nodup_cons] at hnodup
    obtain ⟨hdetached, hempty⟩ := hroots root mem_cons_self
    have hsplit : completionOps (root :: rest) =
        [.deleteInode root, .deleteDetachedRoot root] ++ completionOps rest := rfl
    have hretire := forest_completionOps (s := s) root
    rw [hsplit, applyBatch_append]
    refine .head (hretire ▸ .retire hdetached hempty) (ih _ (fun other hother => ?_) hnodup.2)
    rw [hretire]
    obtain ⟨hdetached', hempty'⟩ := hroots other (mem_cons_of_mem _ hother)
    refine ⟨⟨fun heq => ?_, hdetached'⟩, hempty'⟩
    exact hnodup.1 (heq ▸ hother)

theorem ReclaimPlan.tears {candidates : List InodeId} {maxEntries : ℕ}
    {update : DetachedRootReclaimUpdate} (hplan : ReclaimPlan s candidates maxEntries update) :
    Tears s.forest (s.applyBatch update.ops).forest := by
  unfold DetachedRootReclaimUpdate.ops
  rw [applyBatch_append]
  refine .trans (tears_reclaimEntries _ s
    (fun entry hentry => ⟨(hplan.entries_ok entry hentry).present,
      (hplan.entries_ok entry hentry).marked⟩) hplan.entries_nodup) ?_
  refine tears_completionOps _ _ (fun root hroot => ⟨?_, fun name => ?_⟩) hplan.completed_nodup
  · apply detached_reclaimEntries
    obtain ⟨marker, hmarker⟩ := hplan.completed_marked root hroot
    simp [forest, hmarker]
  · have hread : ∀ c, (s.applyBatch (update.entries.flatMap ops)).dentry root name ≠ some c := by
      intro c hdentry
      obtain ⟨hbefore, hunnamed⟩ := dentry_reclaimEntries _ s hdentry
      obtain ⟨entry, hentry, hparent, hname, _⟩ := hplan.completed_empty root hroot name c hbefore
      exact hunnamed entry hentry ⟨hparent, hname⟩
    exact Option.eq_none_iff_forall_ne_some.2 hread

end Reclaim

/-! ## Every effect is a sequence of forest operations -/

/-- What a rename moves goes into a directory, if the parent is still there. -/
def Command.MovesIntoDirectory (s : Store) : Command → Prop
  | .rename _ _ _ _ dstParentInodeId _ _ _ _ =>
    ∀ inode, s.inode dstParentInodeId = some inode → inode.kind = .dir
  | _ => True

/-- A rename that finds its source makes a move that `mayMove` allows, also when
some entries have been removed before. -/
def Command.MovesAs (mayMove : Forest InodeId String → InodeId → InodeId → Prop)
    (s : Store) : Command → Prop
  | .rename _ srcParentInodeId srcName srcInodeId dstParentInodeId _ _ _ _ =>
    s.dentry srcParentInodeId srcName = some srcInodeId →
    ∀ F : Forest InodeId String, (∀ a b, F.Edge a b → s.forest.Edge a b) →
      mayMove F srcInodeId dstParentInodeId
  | _ => True

section Effects

variable {s : Store} {mayMove : Forest InodeId String → InodeId → InodeId → Prop}

theorem forest_putFile {i : InodeId} {inode new : Inode} {file file' : FileData}
    (hfile : FileAt s i inode file) (hid : new.inodeId = inode.inodeId)
    (hkind : new.kind = .file file') : (s.applyBatch [.putInode new]).forest = s.forest := by
  refine forest_putInodes [new] s fun parent hparent => ?_
  rw [mem_singleton.1 hparent, hid, hfile.id_eq, kind_of_inode hfile.inode_eq]
  simp [Inode.nodeKind, hfile.kind_eq, hkind]

theorem DeleteTarget.steps {rootInodeId : InodeId} {components : List String}
    {parent child : Inode} {name : String} {t : ℕ}
    (htarget : DeleteTarget s rootInodeId components parent name child)
    (hempty : ∀ name, s.dentry child.inodeId name = none) :
    Steps mayMove s.forest (s.applyBatch [.deleteDentry parent.inodeId name,
      .deleteInode child.inodeId, .putInode (touchParent parent t)]).forest :=
  .single (step_unlinkOps htarget.parent_eq.1 htarget.dentry_eq hempty)

theorem Effect.steps {command : Command} {success : ApplySuccess} {batch : WriteBatch}
    (hlinked : Linked s) (h : Effect s command success batch)
    (hdir : command.MovesIntoDirectory s) (hmay : command.MovesAs mayMove s) :
    Steps mayMove s.forest (s.applyBatch batch).forest := by
  have hkeyed := hlinked.toKeyed
  have hforest := hlinked.forest
  have hkeep : ∀ {u : Store} {rest : WriteBatch}, Steps mayMove s.forest u.forest →
      (∀ op ∈ rest, op.KeepsForest) →
      Steps mayMove s.forest (u.applyBatch rest).forest := by
    intro u rest hsteps hrest
    rw [forest_applyBatch_of_keepsForest u rest hrest]
    exact hsteps
  have hsame : ∀ {u : Store}, u.forest = s.forest → Steps mayMove s.forest u.forest := by
    intro u heq
    rw [heq]
  cases h with
  | bootstrapped _ hmounts =>
    obtain ⟨entry, hentry⟩ := hlinked.mount_exists
    rw [hmounts] at hentry
    cases hentry
  | workerRegistered => exact hkeep .refl (by simp [BatchOp.KeepsForest])
  | @directoryMade t p next name attrs parent hparent hparentDir hfree halloc =>
    obtain rfl := hkeyed.inodeId_eq hparent
    rw [applyBatch_append]
    refine hkeep (.single (step_createEntryOps (kind_of_inode hparent) hparentDir
      hfree ?_)) (by simp [BatchOp.KeepsForest])
    exact kind_eq_none.2 (halloc.free le_rfl)
  | @directoriesMade t rootInodeId next next' components attrs root last entries hroot
      hrootDir _ halloc hplan =>
      obtain rfl := hkeyed.inodeId_eq hroot
      unfold directoriesOps
      split
      · exact .refl
      · rw [applyBatch_append]
        exact hkeep (hplan.steps hkeyed hforest hroot hrootDir halloc)
          (by simp [BatchOp.KeepsForest])
  | @fileMade t _ _ _ _ _ _ _ _ next _ attrs layout parent record eviction count _ _ _ _
      hparent hfree halloc hroom _ =>
      unfold createFileOps
      rw [append_assoc, append_assoc, applyBatch_append]
      obtain ⟨hstored, hparentDir⟩ := hparent.parent_eq
      refine hkeep (.single (step_createEntryOps (kind_of_inode hstored) hparentDir hfree ?_)) ?_
      · exact kind_eq_none.2 (halloc.free le_rfl)
      · cases hroom <;> simp [BatchOp.KeepsForest, recordOps, evictionOps]
  | unlinked htarget hfile =>
    exact htarget.steps fun _ => WellFormed.file_no_child hforest htarget.child_eq hfile
  | directoryRemoved htarget _ hempty => exact htarget.steps hempty
  | directoryDetached htarget hchildDir =>
    rw [forest_detachOps htarget.parent_eq.1]
    refine .single (.detach htarget.dentry_eq ?_)
    exact kind_eq_branch.2 ⟨_, htarget.child_eq, hchildDir⟩
  | renameUnchanged hsrc hdst =>
    obtain ⟨rfl, rfl⟩ := hforest.entry_unique hsrc hdst
    exact hsame ((forest_moveOps (by simp)).trans (setChild_self hsrc))
  | renamed hsrc hdst hinode hover hparents =>
    have hbranch : ∀ {q inode}, s.inode q = some inode → inode.kind = .dir →
        s.forest.kind q = some .branch := fun hq hkind =>
      kind_eq_branch.2 ⟨_, hq, hkind⟩
    refine steps_renameOps hkeyed hforest hsrc hdst hover hparents ?_ (hmay hsrc)
    cases hparents with
    | same heq hparent =>
      rw [heq] at hparent
      exact hbranch hparent (hdir _ hparent)
    | different _ _ hparent => exact hbranch hparent (hdir _ hparent)
  | leaseAcquired hfile | blockAllocated hfile | leaseEnded hfile =>
    exact hsame (forest_putFile hfile rfl rfl)
  | filePublished hfile hprepared =>
    have hpublished := prepareFilePublication_ok hprepared
    obtain ⟨_, hkind, _⟩ := hpublished.evolves.of_file hfile.kind_eq
    exact hsame (forest_putFile hfile hpublished.inodeId_eq hkind)
  | fileCommitted hfile _ _ _ hprepared =>
    have hid := (prepareFilePublication_ok hprepared).inodeId_eq
    exact hsame (forest_putFile hfile hid rfl)
  | reclaimed hplan => exact hplan.tears.steps hforest
  | _ => exact .refl

end Effects

end Beryl
