import Beryl.ApplyNamespace
import Beryl.Forest
import Beryl.ReplayTable

/-!
# Invariants of the authority store

What holds of every store the state machine reaches.  `Keyed`, `FilesSound` and
`ReplaySound` hold whatever commands are applied; `Linked` and `NamesValid` need
commands whose parents are directories and whose names are path components.
-/

namespace Beryl

open Store

structure ValidName (name : String) : Prop where
  ne_empty : name ≠ ""
  size_le : name.utf8ByteSize ≤ maxPathComponentBytes
  no_slash : '/' ∉ name.toList
  no_nul : '\x00' ∉ name.toList

def Store.IsMountRoot (s : Store) (inodeId : InodeId) : Prop :=
  ∃ mountId entry, s.mounts.get mountId = some entry ∧ entry.rootInodeId = inodeId

def Inode.nodeKind (inode : Inode) : NodeKind :=
  match inode.kind with
  | .dir => .branch
  | .file _ => .leaf

/-- What the namespace tables are for: directories and files as branches and
leaves, mount roots as roots, and markers as detached nodes. -/
def Store.forest (s : Store) : Forest InodeId String where
  kind i := (s.inode i).map Inode.nodeKind
  child := s.dentry
  root := s.IsMountRoot
  detached i := s.marker i ≠ none

theorem Inode.nodeKind_eq_branch {inode : Inode} :
    inode.nodeKind = .branch ↔ inode.kind = .dir := by
  unfold Inode.nodeKind
  cases inode.kind <;> simp

theorem Store.kind_eq_branch {s : Store} {i : InodeId} :
    s.forest.kind i = some .branch ↔ ∃ inode, s.inode i = some inode ∧ inode.kind = .dir := by
  simp [forest, Inode.nodeKind_eq_branch]

theorem Store.kind_ne_none {s : Store} {i : InodeId} :
    s.forest.kind i ≠ none ↔ ∃ inode, s.inode i = some inode := by
  simp [forest, Option.ne_none_iff_exists']

/-- Inodes sit under their own id, below the allocator, in the one mount. -/
structure Keyed (s : Store) : Prop where
  inodeId_eq : ∀ {i inode}, s.inode i = some inode → inode.inodeId = i
  inode_pos : ∀ {i inode}, s.inode i = some inode → 0 < i
  inode_lt_next : ∀ {i inode}, s.inode i = some inode →
    ∃ next, s.nextInodeId = some next ∧ i < next
  two_le_next : ∀ {next}, s.nextInodeId = some next → 2 ≤ next
  mountId_eq : ∀ {i inode}, s.inode i = some inode → inode.mountId = rootMountId

/-- The namespace of a bootstrapped store: a well-formed forest in the one
mount. -/
structure Linked (s : Store) : Prop extends Keyed s where
  forest : s.forest.WellFormed
  mount_key : ∀ {m entry}, s.mounts.get m = some entry →
    m = rootMountId ∧ entry.mountId = m
  mount_exists : ∃ entry, s.mounts.get rootMountId = some entry
  marker_mount : ∀ {i root}, s.marker i = some root → root.mountId = rootMountId

namespace Linked

variable {s : Store} {p q c i : InodeId} {n m : String}

section

variable (h : Linked s)
include h

theorem child_exists (hdentry : s.dentry p n = some c) : ∃ inode, s.inode c = some inode :=
  kind_ne_none.1 (h.forest.child_exists hdentry)

theorem parent_dir (hdentry : s.dentry p n = some c) :
    ∃ inode, s.inode p = some inode ∧ inode.kind = .dir :=
  kind_eq_branch.1 (h.forest.parent_branch hdentry)

theorem entry_unique (hleft : s.dentry p n = some c)
    (hright : s.dentry q m = some c) : p = q ∧ n = m :=
  h.forest.entry_unique hleft hright

theorem child_unmarked (hdentry : s.dentry p n = some c) : s.marker c = none :=
  not_not.1 (h.forest.child_not_detached hdentry)

theorem marked_dir {root : DetachedRoot} (hmarker : s.marker i = some root) :
    root.mountId = rootMountId ∧ ∃ inode, s.inode i = some inode ∧ inode.kind = .dir := by
  have hdetached : s.forest.detached i := by
    simp [Store.forest, hmarker]
  exact ⟨h.marker_mount hmarker, Store.kind_eq_branch.1 (h.forest.detached_branch hdetached)⟩

theorem mount_root {mountId : MountId} {entry : MountEntry}
    (hmount : s.mounts.get mountId = some entry) : mountId = rootMountId ∧ entry.mountId = mountId ∧
      ∃ inode, s.inode entry.rootInodeId = some inode ∧ inode.kind = .dir := by
  have hroot : s.forest.root entry.rootInodeId := ⟨mountId, entry, hmount, rfl⟩
  exact ⟨(h.mount_key hmount).1, (h.mount_key hmount).2,
    kind_eq_branch.1 (h.forest.root_branch hroot)⟩

theorem root_unentered (hdentry : s.dentry p n = some c) : ¬s.IsMountRoot c :=
  h.forest.child_not_root hdentry

theorem root_unmarked {root : DetachedRoot}
    (hmarker : s.marker i = some root) : ¬s.IsMountRoot i := by
  intro hroot
  refine h.forest.root_not_detached hroot ?_
  simp [Store.forest, hmarker]

end

end Linked

/-- The commit evidence of a file agrees with the file that carries it. -/
structure FileCommit.Agrees (commit : FileCommit) (file : FileData) : Prop where
  generation_eq : commit.generation = file.generation
  size_eq : commit.committedSize = file.len
  epoch_lt : commit.leaseEpoch < file.leaseEpoch
  epoch_bound : commit.leaseEpoch + 1 < 2 ^ 64

/-- Every stored file passes `FileData::validate` and its evidence agrees. -/
structure FilesSound (s : Store) : Prop where
  validate_eq : ∀ {i inode file}, s.inode i = some inode → inode.kind = .file file →
    file.validate i = .ok ()
  evidence : ∀ {i inode file commit}, s.inode i = some inode →
    inode.kind = .file file → file.lastCommit = some commit → commit.Agrees file

structure ReplaySound (s : Store) : Prop extends s.replayTable.Consistent where
  index_lt_next : ∀ {i operationId}, s.createFileReplayInode.get i = some operationId →
    ∃ next, s.nextInodeId = some next ∧ i < next
  count_eq : s.createFileReplayCount.getD 0 = s.createFileReplay.entries.length
  count_le : s.createFileReplay.entries.length ≤ maxCreateFileReplayRecords
  record_layout : ∀ {key record inode}, s.createFileReplay.get key = some record →
    s.inode record.inodeId = some inode →
    ∃ file, inode.kind = .file file ∧ file.layout = record.layout

def NamesValid (s : Store) : Prop :=
  ∀ {p n c}, s.dentry p n = some c → ValidName n

structure Sound (s : Store) : Prop where
  linked : Linked s
  files : FilesSound s
  replay : ReplaySound s
  names : NamesValid s

end Beryl
