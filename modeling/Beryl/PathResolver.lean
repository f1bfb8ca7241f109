import Beryl.Invariants

/-!
# Path resolution

How the leader turns a client path into a mount, the components below its root,
and the inodes they name.  Resolution only reads: the mount table, the dentries
and the inodes of one store.
-/

namespace Beryl

open List

def splitComponents (path : List Char) : List String :=
  ((path.splitOn '/').filter fun piece => !piece.isEmpty).map String.ofList

def normalize (path : String) : MetadataResult String :=
  if path = "" then .error (.invalidArgument "Path cannot be empty")
  else if path.utf8ByteSize > maxPathBytes then
    .error (.invalidArgument s!"Path exceeds {maxPathBytes} bytes")
  else if '\x00' ∈ path.toList then
    .error (.invalidArgument "Path cannot contain null byte")
  else
    let components := splitComponents path.toList
    if components.length > maxPathComponents then
      .error (.invalidArgument s!"Path exceeds {maxPathComponents} components")
    else
      match components.find? fun component =>
          component.utf8ByteSize > maxPathComponentBytes with
      | some component => .error (.invalidArgument
          s!"Path component exceeds {maxPathComponentBytes} bytes: {component}")
      | none =>
        if components = [] then .ok "/"
        else
          let normalized := "/" ++ String.intercalate "/" components
          if normalized.utf8ByteSize > maxPathBytes then
            .error (.invalidArgument
              s!"Normalized path exceeds {maxPathBytes} bytes")
          else .ok normalized

theorem mem_splitOn_slash {path piece : List Char} :
    piece ∈ path.splitOn '/' → '/' ∉ piece ∧ ∀ c ∈ piece, c ∈ path := by
  induction path generalizing piece with
  | nil =>
    intro h
    rw [splitOn_nil, mem_singleton] at h
    simp [h]
  | cons first rest ih =>
    intro h
    rw [splitOn_cons_eq_if_modifyHead] at h
    split at h
    next =>
      rcases mem_cons.1 h with rfl | h
      · simp
      · exact ⟨(ih h).1, fun c hc => mem_cons_of_mem _ ((ih h).2 c hc)⟩
    next hfirst =>
      have hne : first ≠ '/' := by simpa using hfirst
      cases hsplit : rest.splitOn '/' with
      | nil => exact absurd hsplit (splitOn_ne_nil _ _)
      | cons =>
        rw [hsplit, modifyHead_cons] at h
        rw [hsplit] at ih
        rcases mem_cons.1 h with rfl | h
        · obtain ⟨hslash, hmem⟩ := ih mem_cons_self
          refine ⟨?_, fun c hc => ?_⟩
          · intro hc
            rcases mem_cons.1 hc with heq | hc
            · exact hne heq.symm
            · exact hslash hc
          · rcases mem_cons.1 hc with rfl | hc
            · exact mem_cons_self
            · exact mem_cons_of_mem _ (hmem c hc)
        · obtain ⟨hslash, hmem⟩ := ih (mem_cons_of_mem _ h)
          exact ⟨hslash, fun c hc => mem_cons_of_mem _ (hmem c hc)⟩

theorem splitComponents_slash (rest : List Char) :
    splitComponents ('/' :: rest) = splitComponents rest := by
  simp [splitComponents, splitOn_cons_eq_if_modifyHead]

theorem mem_splitComponents {path : List Char} {component : String}
    (h : component ∈ splitComponents path) :
    component ≠ "" ∧ '/' ∉ component.toList ∧ ∀ c ∈ component.toList, c ∈ path := by
  obtain ⟨piece, hpiece, rfl⟩ := mem_map.1 h
  obtain ⟨hmem, hne⟩ := mem_filter.1 hpiece
  obtain ⟨hslash, hchars⟩ := mem_splitOn_slash hmem
  rw [String.toList_ofList]
  refine ⟨fun hempty => ?_, hslash, hchars⟩
  have hnil := congrArg String.toList hempty
  rw [String.toList_ofList] at hnil
  simp [hnil] at hne

theorem splitComponents_intercalate {components : List String}
    (h : ∀ component ∈ components, component ≠ "" ∧ '/' ∉ component.toList) :
    splitComponents (String.intercalate "/" components).toList = components := by
  by_cases hnil : components = []
  · simp [hnil, splitComponents, splitOn_nil]
  · have hsplit : (String.intercalate "/" components).toList.splitOn '/' =
        components.map String.toList := by
      rw [String.toList_intercalate]
      refine splitOn_intercalate '/' (fun piece hpiece => ?_) (by simpa using hnil)
      obtain ⟨component, hcomponent, rfl⟩ := mem_map.1 hpiece
      exact (h component hcomponent).2
    unfold splitComponents
    rw [hsplit, filter_eq_self.2, map_map]
    · simp
    · intro piece hpiece
      obtain ⟨component, hcomponent, rfl⟩ := mem_map.1 hpiece
      have hne := (h component hcomponent).1
      simpa using hne

theorem normalize_ok {path normalized : String} (h : normalize path = .ok normalized) :
    ∃ components, (∀ component ∈ components, ValidName component) ∧
      components.length ≤ maxPathComponents ∧ normalized.utf8ByteSize ≤ maxPathBytes ∧
      normalized = "/" ++ String.intercalate "/" components := by
  unfold normalize at h
  split at h
  · cases h
  · split at h
    · cases h
    · split at h
      · cases h
      next hnul =>
        simp only at h
        split at h
        · cases h
        next hcount =>
          split at h
          · cases h
          next hfind =>
            have hvalid : ∀ component ∈ splitComponents path.toList, ValidName component := by
              intro component hcomponent
              obtain ⟨hne, hslash, hchars⟩ := mem_splitComponents hcomponent
              have hsize := find?_eq_none.1 hfind component hcomponent
              refine ⟨hne, by simpa using hsize, hslash, fun hc => hnul (hchars _ hc)⟩
            refine ⟨splitComponents path.toList, hvalid, not_lt.1 hcount, ?_⟩
            split at h
            next hnil =>
              cases h
              rw [hnil]
              exact ⟨by decide, rfl⟩
            next =>
              split at h
              · cases h
              next hsize =>
                cases h
                exact ⟨not_lt.1 hsize, rfl⟩

structure MountContext where
  mountId : MountId
  mountEpoch : ℕ
  ownerGroupName : GroupName
  rootInodeId : InodeId
deriving DecidableEq

def MountEntry.context (entry : MountEntry) : MountContext where
  mountId := entry.mountId
  mountEpoch := entry.mountEpoch
  ownerGroupName := entry.namespaceOwnerGroupName
  rootInodeId := entry.rootInodeId

def relativeTo (mountPrefix normalized : String) : List String :=
  if mountPrefix.utf8ByteSize = normalized.utf8ByteSize then []
  else
    match normalized.toList.drop mountPrefix.toList.length with
    | '/' :: rest => splitComponents rest
    | rest => splitComponents rest

def betterMount (normalized : String)
    (best : Option (MountEntry × List String) × ℕ) (mount : MountEntry) :
    Option (MountEntry × List String) × ℕ :=
  if mountPrefixMatchesPath mount.mountPrefix normalized then
    if mount.mountPrefix.utf8ByteSize > best.2 then
      (some (mount, relativeTo mount.mountPrefix normalized), mount.mountPrefix.utf8ByteSize)
    else best
  else best

/-- `resolve_mount` on a table that lists its mounts in this order. -/
def resolveMountIn (mounts : List MountEntry) (path : String) :
    MetadataResult (MountEntry × List String) :=
  match normalize path with
  | .error error => .error error
  | .ok normalized =>
    match (mounts.foldl (betterMount normalized) (none, 0)).1 with
    | some found => .ok found
    | none => .error (.notFound s!"No mount found for path: {normalized}")

/-- The source lists the values of a hash map; here they come in the order of their ids. -/
def resolveMount (s : Store) (path : String) : MetadataResult (MountEntry × List String) :=
  resolveMountIn (s.mounts.entries.map Prod.snd) path

def resolveMountComponents (s : Store) (path : String) :
    MetadataResult (MountContext × List String) :=
  match resolveMount s path with
  | .error error => .error error
  | .ok (entry, components) => .ok (entry.context, components)

/-- What resolution finds: the parent and the name of a path below its mount
root, and the inode it names when there is one. -/
structure ResolvedPath where
  mountCtx : MountContext
  relativeComponents : List String
  parentInodeId : Option InodeId
  name : Option String
  inodeId : Option InodeId
  ancestorInodeIds : List InodeId
deriving DecidableEq

/-- `walk_dentry`, returning the inode it ends at and the chain it followed. -/
def walkDentry (s : Store) (currentInodeId : InodeId) (ancestorInodeIds : List InodeId) :
    List String → MetadataResult (InodeId × List InodeId)
  | [] => .ok (currentInodeId, ancestorInodeIds)
  | component :: rest =>
    match s.dentry currentInodeId component with
    | none => .error (entryNotFound component currentInodeId)
    | some childInodeId =>
      walkDentry s childInodeId (ancestorInodeIds ++ [childInodeId]) rest

/-- The end of `resolve_path`: the parent must be a directory, the entry need not
exist. -/
def resolveEntry (s : Store) (mountCtx : MountContext) (components : List String)
    (name : String) (parentInodeId : InodeId) (ancestorInodeIds : List InodeId) :
    MetadataResult ResolvedPath :=
  match s.inode parentInodeId with
  | none => .error (.notFound s!"Parent inode not found: {parentInodeId}")
  | some parentInode =>
    if parentInode.fileType ≠ .dir then
      .error (.notDir s!"Parent is not a directory: {parentInodeId}")
    else
      let inodeId := s.dentry parentInodeId name
      .ok
        { mountCtx, relativeComponents := components,
          parentInodeId := some parentInodeId, name := some name, inodeId,
          ancestorInodeIds := ancestorInodeIds ++ inodeId.toList }

def resolvePath (s : Store) (path : String) : MetadataResult ResolvedPath :=
  match resolveMount s path with
  | .error error => .error error
  | .ok (entry, components) =>
    match components.getLast? with
    | none => .ok
        { mountCtx := entry.context, relativeComponents := [], parentInodeId := none,
          name := none, inodeId := some entry.rootInodeId,
          ancestorInodeIds := [entry.rootInodeId] }
    | some name =>
      match walkDentry s entry.rootInodeId [entry.rootInodeId] components.dropLast with
      | .error error => .error error
      | .ok (parentInodeId, ancestorInodeIds) =>
        resolveEntry s entry.context components name parentInodeId ancestorInodeIds

def crossMountRename (srcMountId dstMountId : MountId) : MetadataError :=
  .crossMountRename ("Cross-mount rename not allowed: src_mount=" ++
    debugId "MountId" srcMountId ++ ", dst_mount=" ++ debugId "MountId" dstMountId)

def resolveRename (s : Store) (srcPath dstPath : String) :
    MetadataResult (ResolvedPath × ResolvedPath) :=
  match resolvePath s srcPath with
  | .error error => .error error
  | .ok src =>
    match resolvePath s dstPath with
    | .error error => .error error
    | .ok dst =>
      if src.mountCtx.mountId ≠ dst.mountCtx.mountId then
        .error (crossMountRename src.mountCtx.mountId dst.mountCtx.mountId)
      else .ok (src, dst)

def rootMounts (groupName : GroupName) : OrderedTable MountId MountEntry :=
  OrderedTable.empty.put rootMountId (rootMountEntry groupName)

theorem rootMounts_entries (groupName : GroupName) :
    (rootMounts groupName).entries = [(rootMountId, rootMountEntry groupName)] := rfl

theorem mountPrefixMatchesPath_root (path : String) :
    mountPrefixMatchesPath rootMountPrefix ("/" ++ path) = true := by
  simp [mountPrefixMatchesPath]

theorem relativeTo_root {components : List String}
    (h : ∀ component ∈ components, ValidName component) :
    relativeTo rootMountPrefix ("/" ++ String.intercalate "/" components) = components := by
  have hsplit := splitComponents_intercalate fun component hcomponent =>
    ⟨(h component hcomponent).ne_empty, (h component hcomponent).no_slash⟩
  have hdrop : ("/" ++ String.intercalate "/" components).toList.drop
      rootMountPrefix.toList.length = (String.intercalate "/" components).toList := by
    rw [String.toList_append]
    rfl
  unfold relativeTo
  rw [hdrop]
  split
  next hsize =>
    have hempty : String.intercalate "/" components = "" := by
      rw [String.utf8ByteSize_append] at hsize
      exact String.utf8ByteSize_eq_zero_iff.1 (Nat.add_eq_left.1 hsize.symm)
    rw [hempty] at hsplit
    exact hsplit
  · split
    next rest hrest =>
      rw [hrest, splitComponents_slash] at hsplit
      exact hsplit
    next => exact hsplit

section Resolved

variable {s : Store} {groupName : GroupName} {path : String}

theorem resolveMount_root {found : MountEntry × List String}
    (hmounts : s.mounts = rootMounts groupName) (h : resolveMount s path = .ok found) :
    found.1 = rootMountEntry groupName ∧ ∀ component ∈ found.2, ValidName component := by
  unfold resolveMount resolveMountIn at h
  split at h
  · cases h
  next normalized hnormalized =>
    obtain ⟨components, hvalid, -, -, rfl⟩ := normalize_ok hnormalized
    rw [hmounts, rootMounts_entries] at h
    have hmatches := mountPrefixMatchesPath_root (String.intercalate "/" components)
    have hprefix : (rootMountEntry groupName).mountPrefix = rootMountPrefix := rfl
    simp only [map_cons, map_nil, foldl_cons, foldl_nil, betterMount, hprefix,
      hmatches, if_true] at h
    rw [if_pos (by decide)] at h
    cases h
    rw [relativeTo_root hvalid]
    exact ⟨rfl, hvalid⟩

/-- A path below its mount root has a directory as parent, and its name is a valid
component. -/
theorem resolvePath_parent {resolved : ResolvedPath} {p : InodeId} {n : String}
    (hmounts : s.mounts = rootMounts groupName) (h : resolvePath s path = .ok resolved)
    (hparent : resolved.parentInodeId = some p) (hname : resolved.name = some n) :
    (∃ inode, s.inode p = some inode ∧ inode.kind = .dir) ∧ ValidName n ∧
      s.dentry p n = resolved.inodeId := by
  unfold resolvePath at h
  split at h
  · cases h
  next entry components hmount =>
    obtain ⟨_, hvalid⟩ := resolveMount_root hmounts hmount
    split at h
    · cases h
      cases hparent
    next name hlast =>
      split at h
      · cases h
      next parentInodeId ancestors hwalk =>
        unfold resolveEntry at h
        split at h
        · cases h
        next parent hinode =>
          split at h
          · cases h
          next hdir =>
            cases h
            cases hparent
            cases hname
            refine ⟨⟨parent, hinode, ?_⟩, hvalid _ (mem_of_getLast? hlast), rfl⟩
            cases hkind : parent.kind with
            | dir => rfl
            | file => simp [Inode.fileType, hkind] at hdir

end Resolved

end Beryl
