import Beryl.Integrity
import Beryl.Service

/-!
# What leader-built commands carry

A command carries what its leader saw: directories as parents, valid components as
names, files behind lease and block commands, and budgets that validation accepts.
These are the only facts about the service that later proofs use.
-/

namespace Beryl

open MetadataFileSystem

def Store.IsDirectory (s : Store) (i : InodeId) : Prop :=
  ∃ inode, s.inode i = some inode ∧ inode.kind = .dir

/-- The id belongs to a file of the store, or to one that a replay record names. -/
def Store.NamesFile (s : Store) (i : InodeId) : Prop :=
  (∃ inode file, s.inode i = some inode ∧ inode.kind = .file file) ∨
    ∃ operationId, s.createFileReplayInode.get i = some operationId

def Command.BuiltIn (s : Store) : Command → Prop
  | .createDirectory _ rootInodeId' components _ recursive =>
    (if recursive then rootInodeId' = rootInodeId else s.IsDirectory rootInodeId') ∧
      ∀ component ∈ components, ValidName component
  | .rename _ srcParentInodeId srcName srcInodeId dstParentInodeId dstName dstInodeId _ _ =>
    s.IsDirectory srcParentInodeId ∧ s.IsDirectory dstParentInodeId ∧
      ValidName dstName ∧ s.dentry srcParentInodeId srcName = some srcInodeId ∧
      s.dentry dstParentInodeId dstName = dstInodeId
  | .acquireWriteLease _ inodeId _ => s.NamesFile inodeId
  | .allocateBlock inodeId _ => s.NamesFile inodeId
  | .endWriteLease _ inodeId _ => s.NamesFile inodeId
  | .publishFile _ inodeId _ => s.NamesFile inodeId
  | .commitFile _ inodeId _ _ _ => s.NamesFile inodeId
  | .reclaimDetachedRoots candidates maxEntries maxBatchBytes =>
    validateDetachedRootReclaimCommand candidates maxEntries maxBatchBytes = .ok ()
  | _ => True

section Built

variable {s : Store} {groupName : GroupName} {command : Command} {t : ℕ}

open MetadataFileSystem

theorem proposeRouted_ok {parents : List InodeId} {proposed : Command}
    (h : proposeRouted s parents proposed = .ok command) : command = proposed := by
  unfold proposeRouted at h
  split at h
  · cases h
  · exact (Except.ok.inj h).symm

variable {path srcPath dstPath : String} {flags : UInt32}

theorem createDirectoryOnce_builtIn (hmounts : s.mounts = rootMounts groupName)
    (h : createDirectoryOnce s path t = .ok command) : command.BuiltIn s := by
  unfold createDirectoryOnce at h
  split at h
  · cases h
  next resolved hresolved =>
    split at h
    next p n hparent hname =>
      obtain ⟨hdir, hvalid, _⟩ := resolvePath_parent hmounts hresolved hparent hname
      rw [proposeRouted_ok h]
      refine ⟨hdir, fun component hcomponent => ?_⟩
      rw [List.mem_singleton.1 hcomponent]
      exact hvalid
    next => cases h

theorem createDirectoryRecursive_builtIn (hmounts : s.mounts = rootMounts groupName)
    (h : createDirectoryRecursive s path t = .ok command) : command.BuiltIn s := by
  unfold createDirectoryRecursive resolveMountComponents at h
  cases hresolved : resolveMount s path with
  | error =>
    rw [hresolved] at h
    cases h
  | ok found =>
    obtain ⟨entry, components⟩ := found
    obtain ⟨rfl, hvalid⟩ := resolveMount_root hmounts hresolved
    simp only [hresolved] at h
    split at h
    · cases h
    · rw [proposeRouted_ok h]
      exact ⟨rfl, hvalid⟩

theorem resolveRename_ok {src dst : ResolvedPath}
    (h : resolveRename s srcPath dstPath = .ok (src, dst)) :
    resolvePath s srcPath = .ok src ∧ resolvePath s dstPath = .ok dst := by
  unfold resolveRename at h
  split at h
  · cases h
  next hsrc =>
    split at h
    · cases h
    next hdst =>
      split at h
      · cases h
      · cases h
        exact ⟨hsrc, hdst⟩

theorem executeRename_ok {p q : InodeId} {proposed : Command}
    (h : executeRename s p q flags proposed = .ok command) : command = proposed := by
  unfold executeRename at h
  split at h
  · cases h
  · split at h
    · cases h
    · split at h
      · cases h
      · split at h
        · cases h
        · exact proposeRouted_ok h

theorem renameResolved_builtIn {src dst : ResolvedPath} (hmounts : s.mounts = rootMounts groupName)
    (hresolved : resolvePath s srcPath = .ok src ∧ resolvePath s dstPath = .ok dst)
    (h : renameResolved s srcPath src dst flags t = .ok command) : command.BuiltIn s := by
  unfold renameResolved at h
  split at h
  next p n hparent hname =>
    split at h
    · cases h
    next x hsource =>
      split at h
      next q m hparent' hname' =>
        obtain ⟨hdir, _, hsrc⟩ := resolvePath_parent hmounts hresolved.1 hparent hname
        obtain ⟨hdir', hvalid, hdst⟩ := resolvePath_parent hmounts hresolved.2 hparent' hname'
        rw [executeRename_ok h]
        exact ⟨hdir, hdir', hvalid, hsrc.trans hsource, hdst⟩
      next => cases h
  next => cases h

theorem rename_builtIn (hmounts : s.mounts = rootMounts groupName)
    (h : MetadataFileSystem.rename s srcPath dstPath flags t = .ok command) :
    command.BuiltIn s := by
  unfold rename at h
  split at h
  · cases h
  · split at h
    · cases h
    · split at h
      · cases h
      next src dst hresolved =>
        exact renameResolved_builtIn hmounts (resolveRename_ok hresolved) h

theorem createDirectory_builtIn {recursive : Bool} (hmounts : s.mounts = rootMounts groupName)
    (h : MetadataFileSystem.createDirectory s path recursive t = .ok command) :
    command.BuiltIn s := by
  unfold createDirectory at h
  split at h
  · cases h
  · split at h
    · exact createDirectoryRecursive_builtIn hmounts h
    · exact createDirectoryOnce_builtIn hmounts h

theorem createFile_builtIn {request : CreateFileRequest}
    (h : MetadataFileSystem.createFile s path request = .ok command) : command.BuiltIn s := by
  unfold createFile at h
  split at h
  · cases h
  · split at h
    · cases h
    · split at h
      · split at h
        · cases h
        · unfold createResolved at h
          split at h
          · cases h
          · split at h
            · cases h
            · cases h
              trivial
      · cases h

theorem delete_builtIn {recursive : Bool}
    (h : MetadataFileSystem.delete s path recursive t = .ok command) : command.BuiltIn s := by
  unfold delete at h
  split at h
  · cases h
  · split at h
    · cases h
    · split at h
      · split at h
        · cases h
        · unfold deleteResolved at h
          split at h
          · cases h
          · split at h
            · cases h
            · cases h
              trivial
      · cases h

theorem decodeDetachedRoots_ok {entries roots : List (InodeId × DetachedRoot)} :
    decodeDetachedRoots entries = .ok roots → roots = entries ∧ 0 ∉ entries.map Prod.fst := by
  induction entries generalizing roots with
  | nil =>
    intro h
    cases h
    simp
  | cons entry rest ih =>
    intro h
    obtain ⟨inodeId, root⟩ := entry
    unfold decodeDetachedRoots at h
    split at h
    · cases h
    next hid =>
      split at h
      · cases h
      · cases hrest : decodeDetachedRoots rest with
        | error =>
          rw [hrest] at h
          cases h
        | ok =>
          rw [hrest] at h
          cases h
          obtain ⟨rfl, hzero⟩ := ih hrest
          refine ⟨rfl, fun hmem => ?_⟩
          rcases List.mem_cons.1 hmem with heq | hmem
          · exact hid heq.symm
          · exact hzero hmem

theorem reclaimOnce_builtIn {config : NamespaceDeleteConfig}
    (h : reclaimOnce s config = .ok (some command)) : command.BuiltIn s := by
  unfold reclaimOnce at h
  split at h
  · cases h
  next roots hroots =>
    obtain ⟨rfl, hzero⟩ := decodeDetachedRoots_ok hroots
    split at h
    · cases h
    next hne =>
      cases h
      have hlength : (s.detachedRoots.entries.take config.maxCandidates).length ≤
          maxReclaimDetachedRootCandidates :=
        (List.length_take_le _ _).trans config.candidates_le
      change validateDetachedRootReclaimCommand _ _ _ = .ok ()
      unfold validateDetachedRootReclaimCommand
      rw [if_neg, if_neg, if_neg]
      · exact not_not.2 ⟨config.le_bytes, config.bytes_le⟩
      · rw [not_or, not_lt]
        exact ⟨config.entries_pos.ne', config.entries_le⟩
      · simp only [List.map_eq_nil_iff, List.length_map, not_or, not_lt]
        exact ⟨hne, hlength, hzero⟩

theorem LeaderBuilt.builtIn (hmounts : s.mounts = rootMounts groupName)
    (h : LeaderBuilt s command) : command.BuiltIn s := by
  have hnames : ∀ {i inode file}, s.inode i = some inode → inode.file = .ok file →
      s.NamesFile i := fun hinode hfile =>
    .inl ⟨_, _, hinode, Inode.file_eq_ok.1 hfile⟩
  cases h with
  | bootstrapNamespace | registerWorkerDescriptor => trivial
  | createDirectory hbuilt => exact createDirectory_builtIn hmounts hbuilt
  | createFile hbuilt => exact createFile_builtIn hbuilt
  | delete hbuilt => exact delete_builtIn hbuilt
  | rename hbuilt => exact rename_builtIn hmounts hbuilt
  | acquireWriteLease hinode hfile | allocateBlock hinode hfile | endWriteLease hinode hfile
  | publishFile hinode hfile | commitFile hinode hfile => exact hnames hinode hfile
  | endReplayedLease hindex => exact .inr ⟨_, hindex⟩
  | reclaimDetachedRoots hbuilt => exact reclaimOnce_builtIn hbuilt

end Built

end Beryl
