import Beryl.ReadFreshness

/-!
# Listing a directory that changes

`ListStatus` reads a page of dentries with one storage call and then the inode of every child
with a call of its own.  What is applied in between may remove a child that the page names, and
the handler takes the missing inode for an error of the whole call.
-/

namespace Beryl

open Observer Transaction ReadService List

section Looks

variable {α β : Type} {s : Moment} {looks : List ReadLook} {answer : Except FsFailure β}

/-- What a handler does after a storage call depends on that call only through its result. -/
theorem stored_look {call : StorageM α} {f : MetadataError → FsFailure} {next : α → ReadM β}
    (h : Outcome ReplicaStep (orFailWith (readStorage call) f >>= next).run s looks answer) :
    ∃ m rest, looks = ⟨.stored, m⟩ :: rest ∧ ((∃ value, m.reads call = .ok value ∧
          Outcome ReplicaStep (next value).run m rest answer) ∨
        ∃ error, m.reads call = .error error ∧ rest = [] ∧ answer = .error (f error)) := by
  have hlook : Outcome ReplicaStep (.look .stored (fun m => m.reads call) fun result =>
      ExceptT.bindCont next (result.mapError f)) s looks answer := h
  cases hlook with
  | @look _ _ _ _ _ m rest _ hmoves hrest =>
    refine ⟨m, rest, rfl, ?_⟩
    dsimp only at hrest
    cases hreads : m.reads call with
    | ok value =>
      rw [hreads] at hrest
      exact .inl ⟨value, rfl, hrest⟩
    | error error =>
      rw [hreads] at hrest
      cases hrest
      exact .inr ⟨error, rfl, rfl, rfl⟩

theorem Moment.reads_getInode_healthy {m : Moment} (h : m.db.env.Healthy) (inodeId : InodeId) :
    m.reads (getInode inodeId) = .ok (m.db.store.inode inodeId) := by
  unfold Moment.reads getInode
  rw [query_healthy h]

theorem lifted_looks {result : Except FsFailure β}
    (h : Outcome ReplicaStep (liftExcept result).run s looks answer) : looks = [] := by
  cases h
  rfl

end Looks

section Guards

variable {service : ReadService} {ctx : RequestContext} {s : Moment} {looks : List ReadLook}

theorem readTarget_looks {inodeId : InodeId} {missing : String} {answer : Except FsFailure Inode}
    (h : Outcome ReplicaStep (readTarget ctx inodeId missing).run s looks answer) :
    looks.length = 1 := by
  unfold readTarget at h
  obtain ⟨m, rest, rfl, ⟨found, -, hrest⟩ | ⟨error, -, rfl, -⟩⟩ := stored_look h
  · cases found with
    | none | some =>
      cases hrest
      rfl
  · rfl

theorem validateRouteEpoch_looks {freshness : Freshness} {groupName : Option GroupName}
    {mountEpoch : Option ℕ} {intent : String} {answer : Except FsFailure (Option ℕ)}
    (h : Outcome ReplicaStep (validateRouteEpoch ctx freshness groupName mountEpoch
      intent).run s looks answer) : looks.length = 1 := by
  unfold validateRouteEpoch at h
  obtain ⟨m, rest, rfl, hrest⟩ := view_look h
  split at hrest
  · cases hrest
    rfl
  · split at hrest
    · split at hrest
      · cases hrest
        rfl
      · cases hrest
        rfl
    · cases hrest
      rfl

theorem validateReadFreshness_looks {freshness : Freshness} {mountId : MountId} {intent : String}
    {answer : Except FsFailure (Option GroupName × Option ℕ × Option ℕ)}
    (h : Outcome ReplicaStep (service.validateReadFreshnessForMount ctx freshness mountId
      intent).run s looks answer) :
    looks.length ≤ 2 ∧ ∀ value, answer = .ok value → looks.length = 2 := by
  unfold validateReadFreshnessForMount at h
  obtain ⟨_, rest, ⟨groupName, mountEpoch⟩, _, rfl, hhints, hrest⟩ | ⟨error, rfl, herror⟩ :=
    sequence_cases h
  · rw [lifted_looks hhints, nil_append]
    obtain ⟨second, rest, routeEpoch, _, rfl, hroute, hrest⟩ | ⟨error, rfl, herror⟩ :=
      sequence_cases hrest
    · obtain ⟨m, last, rfl, hcheck⟩ := view_look hrest
      have hone := validateRouteEpoch_looks hroute
      obtain ⟨_, rest, status, _, hlast, hstatus, hrest⟩ | ⟨error, rfl, herror⟩ :=
        sequence_cases hcheck
      · rw [hlast, lifted_looks hstatus]
        cases status with
        | ready | unknownLastApplied =>
          cases hrest
          simp [hone]
      · simp [hone, lifted_looks herror]
    · simp [validateRouteEpoch_looks herror]
  · simp [lifted_looks herror]

end Guards

section Children

variable {ctx : RequestContext} {parentInodeId : InodeId} {groupName : Option GroupName}
  {mountEpoch routeEpoch : Option ℕ}

/-- The loop over the page: it returns exactly if every child that it looks up is stored then. -/
theorem joinEntries_returns_iff : ∀ {entries : List (String × InodeId)}
    {joined : List ReadService.ReadDirEntry} {s : Moment} {looks : List ReadLook}
    {answer : Except FsFailure (List ReadService.ReadDirEntry)},
    Outcome ReplicaStep (joinEntries ctx parentInodeId groupName mountEpoch routeEpoch
      joined entries).run s looks answer →
    (∀ look ∈ looks, look.state.db.env.Healthy ∧ Keyed look.state.db.store) →
    ((∃ all, answer = .ok all ∧ all.map (·.name) = joined.map (·.name) ++ entries.map Prod.fst) ↔
      ∀ pair ∈ entries.zip looks, pair.2.state.db.store.inode pair.1.2 ≠ none) := by
  intro entries
  induction entries with
  | nil =>
    intro joined s looks answer h _
    cases h
    simp
  | cons entry entries ih =>
    intro joined s looks answer h hlooks
    obtain ⟨name, child⟩ := entry
    unfold joinEntries at h
    obtain ⟨m, rest, rfl, hread⟩ := stored_look h
    obtain ⟨⟨hhealthy, hkeyed⟩, hrest⟩ := forall_mem_cons.1 hlooks
    rw [Moment.reads_getInode_healthy hhealthy] at hread
    obtain ⟨found, hfound, hnext⟩ | ⟨error, herror, -⟩ := hread
    · cases hfound
      rw [zip_cons_cons, forall_mem_cons]
      cases hinode : m.db.store.inode child with
      | none =>
        rw [hinode] at hnext
        cases hnext
        simp
      | some =>
        rw [hinode] at hnext
        dsimp only at hnext
        rw [if_neg (not_not.2 (hkeyed.inodeId_eq hinode))] at hnext
        have hrec := ih hnext hrest
        simpa [hinode] using hrec
    · cases herror

/-- The names of a page are entries of the directory in the state that the page was read in. -/
theorem collectDentryPage_mem {maxEntries : ℕ} {page : DentryPage} :
    ∀ {entries before : List (String × InodeId)},
      collectDentryPage parentInodeId maxEntries before entries = .ok page →
      ∀ entry ∈ page.1, entry ∈ before ∨ entry ∈ entries := by
  intro entries
  induction entries with
  | nil =>
    intro before h entry hentry
    cases h
    exact .inl hentry
  | cons head rest ih =>
    intro before h entry hentry
    unfold collectDentryPage at h
    have hsplit : ∀ {l}, entry ∈ before ++ [head] ∨ entry ∈ l →
        entry ∈ before ∨ entry ∈ head :: l := by
      intro l hmem
      simpa [or_assoc] using hmem
    split at h
    · cases h
    · split at h
      · cases h
        exact hsplit (.inl hentry)
      · exact hsplit (ih h entry hentry)

theorem Moment.page_mem {m : Moment} {cursorKey : Option DentryCursor} {maxEntries : ℕ}
    {page : DentryPage}
    (h : m.reads (listDentriesWithCursor parentInodeId cursorKey maxEntries) = .ok page) :
    ∀ entry ∈ page.1, m.db.store.dentry parentInodeId entry.1 = some entry.2 := by
  have hensures : Ensures (listDentriesWithCursor parentInodeId cursorKey maxEntries)
      m.db (fun page _ => ∀ entry ∈ page.1,
        m.db.store.dentry parentInodeId entry.1 = some entry.2) (Refusal False m.db) := by
    unfold listDentriesWithCursor
    refine failIf_bind (fun _ => .excluded id) fun _ => ?_
    refine ofResult_bind (fun _ _ => .excluded id) fun after _ => ?_
    refine query_bind False.elim ?_
    refine ofResult_ensures (fun _ _ => .excluded id) fun page hpage entry hentry => ?_
    have hmem := (collectDentryPage_mem hpage entry hentry).resolve_left not_mem_nil
    exact Store.mem_dentriesUnder.1 (mem_of_mem_filter hmem)
  unfold Moment.reads at h
  split at h
  next value hvalue =>
    cases h
    exact hensures.of_ok (Prod.ext hvalue rfl)
  · cases h
  · cases h

end Children

/-- A call that has read its page returns it, with entries that were children of the directory
then, exactly when no child on it is gone before the call reads its inode. -/
theorem listing_returns_iff_children_stay (service : ReadService) (ctx : RequestContext)
    (parentInodeId : InodeId) (cursorKey : Option DentryCursor) (maxEntries : ℕ)
    (freshness : Freshness) {start : Moment} {first second third page : ReadLook}
    {children : List ReadLook} {answer : Except FsFailure (FsSuccess ReadService.ReadDirOutput)}
    {entries : List (String × InodeId)} {next : Option (InodeId × String)} {eof : Bool}
    (hkeyed : Keyed start.db.store)
    (houtcome : Outcome ReplicaStep (service.readDirResolved ctx parentInodeId cursorKey maxEntries
      freshness).run start (first :: second :: third :: page :: children) answer)
    (hpage : page.state.reads (listDentriesWithCursor parentInodeId cursorKey maxEntries) =
      .ok (entries, next, eof))
    (hhealthy : ∀ look ∈ children, look.state.db.env.Healthy) :
    (∃ success, answer = .ok success ∧
        success.payload.entries.map (·.name) = entries.map Prod.fst ∧
        ∀ entry ∈ success.payload.entries,
          page.state.db.store.dentry parentInodeId entry.name ≠ none) ↔
      ∀ pair ∈ entries.zip children, pair.2.state.db.store.inode pair.1.2 ≠ none := by
  have hkeyeds := houtcome.all_looks (fun hstep => hstep.keyed) hkeyed
  obtain ⟨one, afterOne, parent, _, hone, htarget, hrest⟩ | ⟨error, -, herror⟩ :=
    sequence_cases houtcome
  · obtain ⟨look, rfl⟩ := length_eq_one_iff.1 (readTarget_looks htarget)
    cases hone
    split at hrest
    · cases hrest
    · split at hrest
      · cases hrest
      · obtain ⟨two, afterTwo, hints, _, htwo, hfresh, hrest⟩ | ⟨error, -, herror⟩ :=
          sequence_cases hrest
        · obtain ⟨look, look', rfl⟩ :=
            length_eq_two.1 ((validateReadFreshness_looks hfresh).2 hints rfl)
          cases htwo
          obtain ⟨m, rest, heq, hread⟩ := stored_look hrest
          cases heq
          rw [hpage] at hread
          obtain ⟨value, hvalue, hjoin⟩ | ⟨error, herror, -⟩ := hread
          · cases hvalue
            have hchildren : ∀ look ∈ children,
                look.state.db.env.Healthy ∧ Keyed look.state.db.store := fun look hlook =>
              ⟨hhealthy look hlook, hkeyeds look (by simp [hlook])⟩
            have hmem := Moment.page_mem hpage
            obtain ⟨looked, rest, joined, _, rfl, hlooked, hpure⟩ | ⟨error, rfl, herror⟩ :=
              sequence_cases hjoin
            · cases hpure
              rw [append_nil] at hchildren ⊢
              rw [← joinEntries_returns_iff hlooked hchildren]
              constructor
              · rintro ⟨success, hsuccess, hnames, -⟩
                cases hsuccess
                exact ⟨joined, rfl, hnames⟩
              · rintro ⟨all, hall, hnames⟩
                cases hall
                refine ⟨_, rfl, hnames, fun entry hentry hnone => ?_⟩
                have hname : entry.name ∈ entries.map Prod.fst := by
                  rw [map_nil, nil_append] at hnames
                  rw [← hnames]
                  exact mem_map_of_mem hentry
                obtain ⟨listed, hlisted, heq⟩ := mem_map.1 hname
                have hdentry := hmem listed hlisted
                rw [heq] at hdentry
                exact nomatch hnone.symm.trans hdentry
            · rw [← joinEntries_returns_iff herror hchildren]
              simp
          · cases herror
        · exact absurd (validateReadFreshness_looks herror).1 (by simp)
  · exact absurd (readTarget_looks herror) (by simp)

def childRemoved : Moment :=
  { nextPublished with
    db := (applyCommitted (.delete 6 rootMountId 1 rootInodeId ["d"] 2 none false)
      { AppMetadataRaftState.initial with lastAppliedLogId := some ⟨1, 1, 3⟩ }
      nextPublished.db).2 }

theorem childRemoved_follows : Relation.ReflTransGen ReplicaStep nextPublished childRemoved := by
  have hlater : ∀ id ∈ nextPublished.storedAt,
      (LogId.mk 1 1 3).toRaftLogId.hasReached id = true := by decide
  have hrun : applyCommitted (.delete 6 rootMountId 1 rootInodeId ["d"] 2 none false)
      { nextPublished.raftState with lastAppliedLogId := some ⟨1, 1, 3⟩ } nextPublished.db =
        (_, childRemoved.db) := rfl
  exact .single (.apply hlater hrun)

/-- A directory is deleted after the page with its name was read: the listing of its parent,
which is there all the time, fails. -/
theorem listing_fails_on_removed_child :
    ∃ looks failure, ReadOutcome rootService creatorContext (.listStatus "/" none 10 ⟨none, none⟩)
        nextPublished looks (.error failure) ∧
      failure.error = ⟨.notFound,
        "not found: Directory dentry 'd' under parent inode 1 points to missing inode 2"⟩ ∧
      ∀ look ∈ looks, (look.state.db.store.inode rootInodeId).map (·.kind) = some .dir := by
  have hchain : List.IsChain (Relation.ReflTransGen ReplicaStep)
      (nextPublished :: replicate 5 nextPublished ++ [childRemoved]) :=
    .cons_cons .refl (.cons_cons .refl (.cons_cons .refl (.cons_cons .refl (.cons_cons .refl
      (.cons_cons childRemoved_follows (.singleton _))))))
  refine ⟨_, _, .of_runOn hchain rfl, rfl, ?_⟩
  simp only [forall_mem_cons, not_mem_nil, false_imp_iff, implies_true, and_true]
  refine ⟨rfl, rfl, rfl, rfl, rfl, rfl⟩

theorem listing_returns_iff_children_stay_unchanged :
    ∃ answer, Outcome ReplicaStep (rootService.readDirResolved creatorContext rootInodeId none 10
        ⟨none, none⟩).run nextPublished [⟨.stored, nextPublished⟩, ⟨.memory, nextPublished⟩,
          ⟨.applied, nextPublished⟩, ⟨.stored, nextPublished⟩, ⟨.stored, nextPublished⟩] answer ∧
      ∃ success, answer = .ok success ∧ success.payload.entries.map (·.name) = ["d"] := by
  have hchain : List.IsChain (Relation.ReflTransGen ReplicaStep)
      (nextPublished :: replicate 5 nextPublished) :=
    .cons_cons .refl (.cons_cons .refl (.cons_cons .refl (.cons_cons .refl (.cons_cons .refl
      (.singleton _)))))
  have houtcome : Outcome ReplicaStep (rootService.readDirResolved creatorContext rootInodeId none
      10 ⟨none, none⟩).run nextPublished [⟨.stored, nextPublished⟩, ⟨.memory, nextPublished⟩,
        ⟨.applied, nextPublished⟩, ⟨.stored, nextPublished⟩, ⟨.stored, nextPublished⟩] (.ok _) :=
    .of_runOn hchain rfl
  have hkeyed : Keyed nextPublished.db.store := by
    refine Relation.ReflTransGen.head_induction_on
      (motive := fun m _ => Keyed m.db.store → Keyed nextPublished.db.store)
      nextPublished_follows id (fun hstep _ ih hkeyed => ih (hstep.keyed hkeyed))
      bootstrappedMoment_sound.keyed
  obtain ⟨success, hsuccess, hnames, -⟩ := (listing_returns_iff_children_stay rootService
    creatorContext rootInodeId none 10 ⟨none, none⟩ hkeyed houtcome rfl
    (by simp; exact fun _ => rfl)).2 (by simp; exact nofun)
  exact ⟨_, houtcome, success, hsuccess, hnames⟩

end Beryl
