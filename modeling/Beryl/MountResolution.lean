import Beryl.PathResolver
import Beryl.Replica

/-!
# The mount of a path

Normalization answers with a path that it leaves as it is.  The components that the resolver
gives for such a path are the end of its own, below the longest mount prefix that ends where a
component does.
-/

namespace Beryl

open List

/-- The path of the components below a mount. -/
def joinedTo (mountPrefix : String) (components : List String) : String :=
  if components = [] then mountPrefix
  else if mountPrefix = rootMountPrefix then mountPrefix ++ String.intercalate "/" components
  else mountPrefix ++ "/" ++ String.intercalate "/" components

/-- The limits that a path has to keep. -/
structure WithinLimits (path : String) : Prop where
  size : path.utf8ByteSize ≤ maxPathBytes
  count : (splitComponents path.toList).length ≤ maxPathComponents
  components : ∀ component ∈ splitComponents path.toList, ValidName component

theorem not_mem_intercalate {c : Char} (hslash : c ≠ '/') : ∀ {pieces : List (List Char)},
    (∀ piece ∈ pieces, c ∉ piece) → c ∉ ['/'].intercalate pieces
  | [], _ => by simp
  | [piece], h => by simpa using h
  | piece :: other :: rest, h => by
    obtain ⟨hpiece, hrest⟩ := forall_mem_cons.1 h
    simp [intercalate_cons_cons, hpiece, hslash, not_mem_intercalate hslash hrest]

section Normalized

variable {components : List String} (hvalid : ∀ component ∈ components, ValidName component)
include hvalid

theorem splitComponents_path :
    splitComponents ("/" ++ String.intercalate "/" components).toList = components := by
  rw [String.toList_append]
  refine (splitComponents_slash _).trans
    (splitComponents_intercalate fun component hcomponent => ?_)
  exact ⟨(hvalid component hcomponent).ne_empty, (hvalid component hcomponent).no_slash⟩

theorem no_nul_path : '\x00' ∉ ("/" ++ String.intercalate "/" components).toList := by
  have hpieces : ∀ piece ∈ components.map String.toList, '\x00' ∉ piece := by
    intro piece hpiece
    obtain ⟨component, hcomponent, rfl⟩ := mem_map.1 hpiece
    exact (hvalid component hcomponent).no_nul
  have hrest := not_mem_intercalate (by decide) hpieces
  rw [String.toList_append, String.toList_intercalate, mem_append, not_or]
  exact ⟨by decide, hrest⟩

theorem normalize_path (hcount : components.length ≤ maxPathComponents)
    (hsize : ("/" ++ String.intercalate "/" components).utf8ByteSize ≤ maxPathBytes) :
    normalize ("/" ++ String.intercalate "/" components) =
      .ok ("/" ++ String.intercalate "/" components) := by
  have hfind : components.find? (fun component =>
      component.utf8ByteSize > maxPathComponentBytes) = none :=
    find?_eq_none.2 fun component hcomponent => by
      simpa using (hvalid component hcomponent).size_le
  have hne : "/" ++ String.intercalate "/" components ≠ "" := fun hempty => by
    simpa using congrArg String.utf8ByteSize hempty
  unfold normalize
  rw [if_neg hne, if_neg (not_lt.2 hsize), if_neg (no_nul_path hvalid), splitComponents_path hvalid]
  simp only [hfind, if_neg (not_lt.2 hcount), if_neg (not_lt.2 hsize)]
  split
  next hnil =>
    rw [hnil]
    rfl
  · rfl

theorem splitOn_suffix {mountPrefix : String} {rest : List Char} (hne : mountPrefix ≠ "")
    (hbelow : mountPrefix.toList ++ '/' :: rest =
      ("/" ++ String.intercalate "/" components).toList) :
    rest.splitOn '/' <:+ components.map String.toList := by
  have hnil : components ≠ [] := by
    rintro rfl
    have hlength := congrArg length hbelow
    have hempty : mountPrefix.toList.length = 0 := by
      simp at hlength
      omega
    exact hne (by simpa using hempty)
  have hpieces : ("/" ++ String.intercalate "/" components).toList.splitOn '/' =
      [] :: components.map String.toList := by
    rw [String.toList_append, String.toList_intercalate]
    refine (splitOn_append_cons_self [] _).trans ?_
    rw [splitOn_nil]
    refine congrArg _ (splitOn_intercalate '/' (fun piece hpiece => ?_) (by simpa using hnil))
    obtain ⟨component, hcomponent, rfl⟩ := mem_map.1 hpiece
    exact (hvalid component hcomponent).no_slash
  rw [← hbelow, splitOn_append_cons_self] at hpieces
  cases hfirst : mountPrefix.toList.splitOn '/' with
  | nil => exact absurd hfirst (splitOn_ne_nil _ _)
  | cons first others =>
    rw [hfirst] at hpieces
    exact ⟨others, (List.cons.inj hpieces).2⟩

/-- The components below a matching prefix are the last ones of the path. -/
theorem relativeTo_path {mountPrefix : String} (hne : mountPrefix ≠ "")
    (hmatches : mountPrefixMatchesPath mountPrefix ("/" ++ String.intercalate "/" components)) :
    relativeTo mountPrefix ("/" ++ String.intercalate "/" components) <:+ components ∧
      joinedTo mountPrefix (relativeTo mountPrefix ("/" ++ String.intercalate "/" components)) =
        "/" ++ String.intercalate "/" components := by
  by_cases hroot : mountPrefix = rootMountPrefix
  · subst hroot
    rw [relativeTo_root hvalid]
    refine ⟨suffix_rfl, ?_⟩
    unfold joinedTo
    split
    next hnil =>
      rw [hnil]
      rfl
    · rw [if_pos rfl]
      rfl
  · unfold mountPrefixMatchesPath at hmatches
    rw [if_neg hroot, Bool.or_eq_true, decide_eq_true_eq, Bool.and_eq_true, decide_eq_true_eq,
      isPrefixOf_iff_prefix] at hmatches
    obtain hwhole | ⟨⟨below, hbelow⟩, hslash⟩ := hmatches
    · have hnone : relativeTo mountPrefix ("/" ++ String.intercalate "/" components) = [] := by
        rw [hwhole]
        exact if_pos rfl
      rw [hnone]
      exact ⟨nil_suffix, hwhole.symm⟩
    · rw [← hbelow, drop_left] at hslash
      obtain ⟨rest, rfl⟩ : ∃ rest, below = '/' :: rest := by
        cases below with
        | nil => cases hslash
        | cons c rest => exact ⟨rest, by rw [Option.some.inj hslash]⟩
      have hpath : "/" ++ String.intercalate "/" components =
          mountPrefix ++ ("/" ++ String.ofList rest) := by
        rw [← String.toList_inj, ← hbelow]
        simp
      have hsuffix := splitOn_suffix hvalid hne hbelow
      have hrelative : relativeTo mountPrefix ("/" ++ String.intercalate "/" components) =
          (rest.splitOn '/').map String.ofList := by
        unfold relativeTo
        have hdrop : ("/" ++ String.ofList rest).toList = '/' :: rest := by simp
        rw [hpath, if_neg (by simp), String.toList_append, drop_left, hdrop]
        refine congrArg (map String.ofList) (filter_eq_self.2 fun piece hpiece => ?_)
        obtain ⟨component, hcomponent, rfl⟩ := mem_map.1 (hsuffix.subset hpiece)
        simpa using (hvalid component hcomponent).ne_empty
      rw [hrelative]
      refine ⟨?_, ?_⟩
      · simpa using hsuffix.map String.ofList
      · unfold joinedTo
        rw [if_neg (by simp), if_neg hroot, hpath, ← String.toList_inj]
        simp [String.toList_intercalate, Function.comp_def, intercalate_splitOn]

theorem relativeTo_accepted {relative : List String} (hsuffix : relative <:+ components)
    (hcount : components.length ≤ maxPathComponents) (hne : relative ≠ []) (operation : String) :
    validateRelativeComponents operation relative = .ok () := by
  have hcheck : ∀ {relative : List String}, (∀ component ∈ relative, ValidName component) →
      checkRelativeComponents operation relative = .ok () := by
    intro relative h
    induction relative with
    | nil => rfl
    | cons component rest ih =>
      obtain ⟨hname, hrest⟩ := forall_mem_cons.1 h
      unfold checkRelativeComponents
      rw [if_neg (by simp [hname.ne_empty, hname.no_slash, hname.no_nul]),
        if_neg (not_lt.2 hname.size_le), ih hrest]
  unfold validateRelativeComponents
  rw [if_neg hne, if_neg (not_lt.2 (hsuffix.length_le.trans hcount))]
  exact hcheck fun component hcomponent => hvalid component (hsuffix.subset hcomponent)

end Normalized

section Mounts

/-- The loop over the mounts keeps the first of the longest matches. -/
theorem betterMount_foldl (normalized : String) (mounts : List MountEntry) :
    let result := mounts.foldl (betterMount normalized) (none, 0)
    (result.1 = none → result.2 = 0) ∧
    (∀ found, result.1 = some found → found.1 ∈ mounts ∧
      mountPrefixMatchesPath found.1.mountPrefix normalized ∧
      found.2 = relativeTo found.1.mountPrefix normalized ∧
      0 < result.2 ∧ result.2 = found.1.mountPrefix.utf8ByteSize) ∧
    ∀ mount ∈ mounts, mountPrefixMatchesPath mount.mountPrefix normalized →
      mount.mountPrefix.utf8ByteSize ≤ result.2 := by
  induction mounts using reverseRecOn with
  | nil => simp
  | append_singleton mounts mount ih =>
    obtain ⟨hnone, hfound, hlongest⟩ := ih
    rw [foldl_append, foldl_cons, foldl_nil]
    simp only [mem_append, mem_singleton]
    unfold betterMount
    split
    next hmatches =>
      split
      next hlonger =>
        refine ⟨nofun, ?_, ?_⟩
        · rintro found ⟨⟩
          exact ⟨.inr rfl, hmatches, rfl, (Nat.zero_le _).trans_lt hlonger, rfl⟩
        · rintro other (hother | rfl) hother'
          · exact (hlongest other hother hother').trans (le_of_lt hlonger)
          · exact le_rfl
      next hshorter =>
        refine ⟨hnone, fun found hsome => ⟨.inl (hfound found hsome).1, (hfound found hsome).2⟩, ?_⟩
        rintro other (hother | rfl) hother'
        · exact hlongest other hother hother'
        · exact not_lt.1 hshorter
    next hdiffers =>
      refine ⟨hnone, fun found hsome => ⟨.inl (hfound found hsome).1, (hfound found hsome).2⟩, ?_⟩
      rintro other (hother | rfl) hother'
      · exact hlongest other hother hother'
      · exact absurd hother' hdiffers

theorem prefix_of_matches {mountPrefix path : String}
    (h : mountPrefixMatchesPath mountPrefix ("/" ++ path)) :
    mountPrefix.toList <+: ("/" ++ path).toList := by
  unfold mountPrefixMatchesPath at h
  split at h
  next hroot =>
    rw [hroot, String.toList_append]
    exact prefix_append _ _
  · rw [Bool.or_eq_true, decide_eq_true_eq, Bool.and_eq_true, isPrefixOf_iff_prefix] at h
    rcases h with hwhole | hpart
    · rw [hwhole]
    · exact hpart.1

/-- Two prefixes of one path that are equally long are the same. -/
theorem eq_of_prefixes {left right path : String} (hleft : left.toList <+: path.toList)
    (hright : right.toList <+: path.toList) (hsize : left.utf8ByteSize = right.utf8ByteSize) :
    left = right := by
  wlog hle : left.toList.length ≤ right.toList.length generalizing left right
  · exact (this hright hleft hsize.symm (le_of_not_ge hle)).symm
  · obtain ⟨rest, hrest⟩ := prefix_of_prefix_length_le hleft hright hle
    have hright' : right = left ++ String.ofList rest := by
      rw [← String.toList_inj, ← hrest]
      simp
    rw [hright', String.utf8ByteSize_append] at hsize
    have hempty := String.utf8ByteSize_eq_zero_iff.1 (Nat.add_eq_left.1 hsize.symm)
    rw [hright', hempty, String.append_empty]

/-- Two mounts are never at the same place, and none is without one. -/
structure Store.MountsApart (s : Store) : Prop where
  distinct : ∀ {mountId mountId' mount mount'}, s.mounts.get mountId = some mount →
    s.mounts.get mountId' = some mount' → mount.mountPrefix = mount'.mountPrefix → mount = mount'
  nonempty : ∀ {mountId mount}, s.mounts.get mountId = some mount → mount.mountPrefix ≠ ""

/-- What the resolver answers for a path: the one mount with the longest matching prefix and the
rest of the path below it, or that no mount matches. -/
def Store.Resolves (s : Store) (path : String) : MetadataResult (MountEntry × List String) → Prop
  | .error _ => ∀ mountId mount, s.mounts.get mountId = some mount →
      ¬mountPrefixMatchesPath mount.mountPrefix path
  | .ok (found, components) => (∃ mountId, s.mounts.get mountId = some found) ∧
      mountPrefixMatchesPath found.mountPrefix path ∧
      (∀ mountId mount, s.mounts.get mountId = some mount →
        mountPrefixMatchesPath mount.mountPrefix path →
          mount = found ∨ mount.mountPrefix.utf8ByteSize < found.mountPrefix.utf8ByteSize) ∧
      joinedTo found.mountPrefix components = path ∧
      (components ≠ [] → ∀ operation, validateRelativeComponents operation components = .ok ())

theorem mem_mounts {s : Store} {mount : MountEntry} :
    mount ∈ s.mounts.entries.map Prod.snd ↔ ∃ mountId, s.mounts.get mountId = some mount := by
  simp [← OrderedTable.mem_entries_iff]

/-- A normalized path is left as it is by normalization, keeps the limits, and is resolved to the
longest mount above it, whatever mounts there are and in whatever order they are listed. -/
theorem normalized_path_resolves {path normalized : String}
    (hnormalize : normalize path = .ok normalized) :
    normalize normalized = .ok normalized ∧ WithinLimits normalized ∧
      ∀ s : Store, s.MountsApart → ∀ mounts, mounts.Perm (s.mounts.entries.map Prod.snd) →
        s.Resolves normalized (resolveMountIn mounts normalized) := by
  obtain ⟨components, hvalid, hcount, hsize, rfl⟩ := normalize_ok hnormalize
  have hagain := normalize_path hvalid hcount hsize
  have hsplit := splitComponents_path hvalid
  refine ⟨hagain, ⟨hsize, ?_, ?_⟩, fun s hmounts mounts hlisted => ?_⟩
  · rw [hsplit]
    exact hcount
  · rw [hsplit]
    exact hvalid
  obtain ⟨hnone, hfound, hlongest⟩ := betterMount_foldl
    ("/" ++ String.intercalate "/" components) mounts
  simp only [hlisted.mem_iff] at hfound hlongest
  unfold resolveMountIn
  rw [hagain]
  dsimp only
  split
  next found hsome =>
    obtain ⟨hmem, hmatches, hrelative, -, hbest⟩ := hfound found hsome
    obtain ⟨mountId, hget⟩ := mem_mounts.1 hmem
    obtain ⟨hsuffix, hjoined⟩ := relativeTo_path hvalid (hmounts.nonempty hget) hmatches
    rw [← hrelative] at hsuffix hjoined
    refine ⟨⟨mountId, hget⟩, hmatches, fun otherId other hother hmatches' => ?_, hjoined,
      relativeTo_accepted hvalid hsuffix hcount⟩
    have hle := hlongest other (mem_mounts.2 ⟨otherId, hother⟩) hmatches'
    rw [hbest] at hle
    rcases hle.lt_or_eq with hlt | heq
    · exact .inr hlt
    · exact .inl (hmounts.distinct hother hget
        (eq_of_prefixes (prefix_of_matches hmatches') (prefix_of_matches hmatches) heq))
  next hempty =>
    intro mountId mount hget hmatches
    have hle := hlongest mount (mem_mounts.2 ⟨mountId, hget⟩) hmatches
    rw [hnone hempty, Nat.le_zero, String.utf8ByteSize_eq_zero_iff] at hle
    exact hmounts.nonempty hget hle

def mountsAt (mountPrefixes : List String) : Store :=
  { Store.empty with
    mounts := OrderedTable.empty.putAll (mountPrefixes.mapIdx fun mountId mountPrefix =>
      (mountId, { rootMountEntry rootGroup with mountId, mountPrefix })) }

/-- Two mounts at one place are equally long, and a mount without a place matches every path and
is never found. -/
theorem resolution_without_places :
    (∃ mount other, resolveMount (mountsAt ["/a", "/a"]) "/a/b" = .ok (mount, ["b"]) ∧
      (mountsAt ["/a", "/a"]).mounts.get 1 = some other ∧ other ≠ mount ∧
      other.mountPrefix = mount.mountPrefix) ∧
    mountPrefixMatchesPath "" "/b" = true ∧
    resolveMount (mountsAt [""]) "/b" = .error (.notFound "No mount found for path: /b") := by
  refine ⟨⟨_, _, rfl, rfl, by decide, rfl⟩, rfl, rfl⟩

theorem normalized_path_resolves_nested :
    let s := mountsAt ["/", "/a", "/a/b"]
    let mounts := (s.mounts.entries.map Prod.snd).reverse
    normalize "//a///b/c/" = .ok "/a/b/c" ∧
      (resolveMountIn mounts "/a/b/c").toOption.map (fun found => (found.1.mountPrefix, found.2)) =
        some ("/a/b", ["c"]) ∧
      s.Resolves "/a/b/c" (resolveMountIn mounts "/a/b/c") := by
  intro s mounts
  have hdistinct : ∀ mount ∈ s.mounts.entries.map Prod.snd,
      ∀ other ∈ s.mounts.entries.map Prod.snd, mount.mountPrefix = other.mountPrefix →
        mount = other := by
    decide +kernel
  have hnonempty : ∀ mount ∈ s.mounts.entries.map Prod.snd, mount.mountPrefix ≠ "" := by
    decide +kernel
  have hmounts : s.MountsApart :=
    ⟨fun h h' => hdistinct _ (mem_mounts.2 ⟨_, h⟩) _ (mem_mounts.2 ⟨_, h'⟩),
      fun h => hnonempty _ (mem_mounts.2 ⟨_, h⟩)⟩
  have hnormalize : normalize "//a///b/c/" = .ok "/a/b/c" := by decide +kernel
  exact ⟨hnormalize, by decide +kernel,
    (normalized_path_resolves hnormalize).2.2 s hmounts mounts (reverse_perm _)⟩

end Mounts

end Beryl
