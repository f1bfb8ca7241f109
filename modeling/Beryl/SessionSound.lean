import Beryl.SessionIndex

/-!
# What every registry call keeps

A sound state has correct indexes, coherent sessions and stays within the limits.
For each method: from a sound state it ends in a sound state, it reaches no
assertion, and it changes the primary maps in the way stated here, after a sweep
that removed nothing but what had expired.
-/

namespace Beryl

open Transaction Registry HashMap

/-! ## Sound states -/

/-- What the fields of one active session have to do with each other. -/
structure WriteSession.Coherent (session : WriteSession) (nextPublicationId : ℕ) : Prop where
  /-- A pending allocation and a publication exclude each other. -/
  idle : session.pendingAllocateBlock ≠ none → session.activePublication = none
  submitted : session.publicationSubmitted = true → session.activePublication ≠ none
  step : ∀ pending, session.pendingAllocateBlock = some pending →
    session.issuedSteps.lookup pending.previousBlockId = none
  publication : ∀ publicationId, session.activePublication = some publicationId →
    publicationId < nextPublicationId

structure SessionBook.Coherent (book : SessionBook) : Prop where
  inode : ∀ {inodeId entry}, book.entries.lookup inodeId = some entry → entry.inodeId = inodeId
  chain : ∀ {inodeId entry}, book.entries.lookup inodeId = some entry →
    entry.ancestorInodeIds.Nodup
  opening : ∀ {inodeId opening}, book.entries.lookup inodeId = some (.opening opening) →
    opening.openingId < book.nextOpeningId
  session : ∀ {inodeId session}, book.entries.lookup inodeId = some (.active session) →
    session.Coherent book.nextPublicationId
  createOperation : ∀ {operationId opening},
    book.createOpenings.lookup operationId = some opening → opening.operationId = operationId
  createChain : ∀ {operationId opening},
    book.createOpenings.lookup operationId = some opening →
      opening.parentAncestorInodeIds.Nodup
  createOpening : ∀ {operationId opening},
    book.createOpenings.lookup operationId = some opening →
      opening.openingId < book.nextOpeningId
  /-- An operation is pending or active, not both. -/
  exclusive : ∀ {operationId opening inodeId entry},
    book.createOpenings.lookup operationId = some opening →
      book.entries.lookup inodeId = some entry → entry.createOperation ≠ some operationId

structure SessionBook.Within (book : SessionBook) (registry : SessionRegistry) : Prop where
  sessions : book.entries.len + book.createOpenings.len ≤ registry.maxSessions
  perClient : ∀ clientId, book.clientLoad clientId ≤ registry.maxSessionsPerClient
  targets : book.targetLoad ≤ registry.maxWriteTargets
  perSession : ∀ {inodeId entry}, book.entries.lookup inodeId = some entry →
    entry.ownedTargets ≤ registry.maxWriteTargetsPerSession

structure SessionRegistryState.Sound (registry : SessionRegistry)
    (state : SessionRegistryState) : Prop where
  indexed : state.Indexed
  coherent : state.book.Coherent
  within : state.book.Within registry

theorem SessionRegistryState.default_sound (registry : SessionRegistry) :
    SessionRegistryState.default.Sound registry where
  indexed := default_indexed
  coherent :=
    { inode := nofun
      chain := nofun
      opening := nofun
      session := nofun
      createOperation := nofun
      createChain := nofun
      createOpening := nofun
      exclusive := nofun }
  within :=
    { sessions := Nat.zero_le _
      perClient := fun _ => Nat.zero_le _
      targets := Nat.zero_le _
      perSession := nofun }

/-! ## Removing keeps the primary maps coherent -/

namespace SessionBook

variable {book : SessionBook} {registry : SessionRegistry}

theorem lookup_of_eraseEntry {inodeId inodeId' : InodeId} {entry : WriteSessionEntry}
    (h : (book.eraseEntry inodeId).entries.lookup inodeId' = some entry) :
    book.entries.lookup inodeId' = some entry :=
  HashMap.lookup_of_erase h

theorem lookup_of_eraseCreate {operationId operationId' : CreateFileOperationId}
    {opening : CreateOpeningSession}
    (h : (book.eraseCreate operationId).createOpenings.lookup operationId' = some opening) :
    book.createOpenings.lookup operationId' = some opening :=
  HashMap.lookup_of_erase h

theorem Coherent.eraseEntry (h : book.Coherent) (inodeId : InodeId) :
    (book.eraseEntry inodeId).Coherent where
  inode hfound := h.inode (lookup_of_eraseEntry hfound)
  chain hfound := h.chain (lookup_of_eraseEntry hfound)
  opening hfound := h.opening (lookup_of_eraseEntry hfound)
  session hfound := h.session (lookup_of_eraseEntry hfound)
  createOperation := h.createOperation
  createChain := h.createChain
  createOpening := h.createOpening
  exclusive hcreate hfound := h.exclusive hcreate (lookup_of_eraseEntry hfound)

theorem Coherent.eraseCreate (h : book.Coherent) (operationId : CreateFileOperationId) :
    (book.eraseCreate operationId).Coherent :=
  { h with
    createOperation hfound := h.createOperation (lookup_of_eraseCreate hfound)
    createChain hfound := h.createChain (lookup_of_eraseCreate hfound)
    createOpening hfound := h.createOpening (lookup_of_eraseCreate hfound)
    exclusive hcreate hfound := h.exclusive (lookup_of_eraseCreate hcreate) hfound }

theorem Within.eraseEntry (h : book.Within registry) {inodeId : InodeId}
    {entry : WriteSessionEntry} (hentry : book.entries.lookup inodeId = some entry) :
    (book.eraseEntry inodeId).Within registry where
  sessions := by
    have hlen := len_erase hentry
    have hsessions := h.sessions
    change len (book.entries.erase inodeId) + book.createOpenings.len ≤ _
    omega
  perClient c := by
    have hload := clientLoad_eraseEntry hentry c
    have hclient := h.perClient c
    omega
  targets := by
    have hload := targetLoad_eraseEntry hentry
    have htargets := h.targets
    omega
  perSession hfound := h.perSession (lookup_of_eraseEntry hfound)

theorem Within.eraseCreate (h : book.Within registry) {operationId : CreateFileOperationId}
    {opening : CreateOpeningSession}
    (hfound : book.createOpenings.lookup operationId = some opening) :
    (book.eraseCreate operationId).Within registry where
  sessions := by
    have hlen := len_erase hfound
    have hsessions := h.sessions
    change book.entries.len + len (book.createOpenings.erase operationId) ≤ _
    omega
  perClient c := by
    have hload := clientLoad_eraseCreate hfound c
    have hclient := h.perClient c
    omega
  targets := h.targets
  perSession := h.perSession

end SessionBook

/-! ## Sweeps -/

/-- Nothing left the book but what had expired, and nothing changed. -/
structure SessionBook.Swept (nowMs : ℕ) (book book' : SessionBook) : Prop where
  entries : ∀ inodeId, book'.entries.lookup inodeId = book.entries.lookup inodeId ∨
    book'.entries.lookup inodeId = none ∧
      ∃ entry, book.entries.lookup inodeId = some entry ∧ entry.retirementAtMs ≤ nowMs
  creates : ∀ operationId,
    book'.createOpenings.lookup operationId = book.createOpenings.lookup operationId ∨
      book'.createOpenings.lookup operationId = none ∧
        ∃ opening, book.createOpenings.lookup operationId = some opening ∧
          opening.expiresAtMs ≤ nowMs
  nextOpeningId : book'.nextOpeningId = book.nextOpeningId
  nextPublicationId : book'.nextPublicationId = book.nextPublicationId

namespace SessionBook.Swept

variable {nowMs : ℕ} {book book' book'' : SessionBook}

theorem refl (nowMs : ℕ) (book : SessionBook) : Swept nowMs book book :=
  ⟨fun _ => .inl rfl, fun _ => .inl rfl, rfl, rfl⟩

theorem trans (h : Swept nowMs book book') (h' : Swept nowMs book' book'') :
    Swept nowMs book book'' where
  entries inodeId := by
    rcases h'.entries inodeId with hsame | ⟨hnone, entry, hentry, hexpired⟩
    · rw [hsame]
      exact h.entries inodeId
    · rcases h.entries inodeId with hsame | ⟨hgone, _⟩
      · exact .inr ⟨hnone, entry, hsame ▸ hentry, hexpired⟩
      · rw [hgone] at hentry
        cases hentry
  creates operationId := by
    rcases h'.creates operationId with hsame | ⟨hnone, opening, hopening, hexpired⟩
    · rw [hsame]
      exact h.creates operationId
    · rcases h.creates operationId with hsame | ⟨hgone, _⟩
      · exact .inr ⟨hnone, opening, hsame ▸ hopening, hexpired⟩
      · rw [hgone] at hopening
        cases hopening
  nextOpeningId := h'.nextOpeningId.trans h.nextOpeningId
  nextPublicationId := h'.nextPublicationId.trans h.nextPublicationId

variable {inodeId : InodeId} {entry : WriteSessionEntry}

theorem eraseEntry (hentry : book.entries.lookup inodeId = some entry)
    (hexpired : entry.retirementAtMs ≤ nowMs) :
    Swept nowMs book (book.eraseEntry inodeId) where
  entries inodeId' := by
    rw [lookup_eraseEntry]
    split
    next heq =>
      subst heq
      exact .inr ⟨rfl, entry, hentry, hexpired⟩
    next => exact .inl rfl
  creates _ := .inl rfl
  nextOpeningId := rfl
  nextPublicationId := rfl

theorem eraseCreate {operationId : CreateFileOperationId} {opening : CreateOpeningSession}
    (hopening : book.createOpenings.lookup operationId = some opening)
    (hexpired : opening.expiresAtMs ≤ nowMs) :
    Swept nowMs book (book.eraseCreate operationId) where
  entries _ := .inl rfl
  creates operationId' := by
    rw [lookup_eraseCreate]
    split
    next heq =>
      subst heq
      exact .inr ⟨rfl, opening, hopening, hexpired⟩
    next => exact .inl rfl
  nextOpeningId := rfl
  nextPublicationId := rfl

theorem lookup_of_some (h : Swept nowMs book book')
    (hentry : book'.entries.lookup inodeId = some entry) :
    book.entries.lookup inodeId = some entry := by
  rcases h.entries inodeId with hsame | ⟨hnone, _⟩
  · rw [← hsame]
    exact hentry
  · rw [hnone] at hentry
    cases hentry

theorem lookup_of_live (h : Swept nowMs book book')
    (hentry : book.entries.lookup inodeId = some entry) (hlive : nowMs < entry.retirementAtMs) :
    book'.entries.lookup inodeId = some entry := by
  rcases h.entries inodeId with hsame | ⟨_, found, hfound, hexpired⟩
  · rw [hsame]
    exact hentry
  · rw [hentry] at hfound
    cases hfound
    omega

end SessionBook.Swept

def SessionBook.Retires (book : SessionBook) (next : NextExpiry) (book' : SessionBook) : Prop :=
  match next with
  | .session time inodeId => ∃ entry, book.entries.lookup inodeId = some entry ∧
      entry.retirementAtMs = time ∧ book' = book.eraseEntry inodeId
  | .create time openingId => ∃ operationId opening,
      book.createOpenings.lookup operationId = some opening ∧ opening.expiresAtMs = time ∧
      opening.openingId = openingId ∧ book' = book.eraseCreate operationId

theorem SessionBook.Retires.swept {book book' : SessionBook} {next : NextExpiry} {nowMs : ℕ}
    (h : book.Retires next book') (hexpired : next.expiresAtMs ≤ nowMs) :
    Swept nowMs book book' := by
  cases next with
  | session =>
    obtain ⟨entry, hentry, htime, rfl⟩ := h
    exact Swept.eraseEntry hentry (htime ▸ hexpired)
  | create =>
    obtain ⟨operationId, opening, hopening, htime, _, rfl⟩ := h
    exact Swept.eraseCreate hopening (htime ▸ hexpired)

namespace SessionRegistryState.Sound

variable {E : Type} {registry : SessionRegistry} {state : SessionRegistryState} {nowMs : ℕ}

theorem nextExpiry_head {next : NextExpiry} (hnext : nextExpiry state = some next) :
    match next with
    | .session time inodeId =>
      state.entriesByExpiry.entries.head? = some (toLex (time, inodeId), ())
    | .create time openingId =>
      state.createOpeningsByExpiry.entries.head? = some (toLex (time, openingId), ()) := by
  unfold nextExpiry at hnext
  split at hnext
  · cases hnext
  next hcreate =>
    cases hnext
    exact hcreate
  next hsession _ =>
    cases hnext
    exact hsession
  next hsession hcreate =>
    split at hnext
    · cases hnext
      exact hcreate
    · cases hnext
      exact hsession

section

variable (h : state.Sound registry)
include h

theorem removeEntry_run {inodeId : InodeId}
    {entry : WriteSessionEntry} (hentry : state.entries.lookup inodeId = some entry) :
    ∃ state', (removeEntry inodeId : Registry E _) state = (.ok (some entry), state') ∧
      state'.Sound registry ∧ state'.book = state.book.eraseEntry inodeId := by
  obtain ⟨state', hrun, hindexed, hbook⟩ :=
    h.indexed.removeEntry_run hentry (h.coherent.chain hentry)
  refine ⟨state', hrun, ⟨hindexed, ?_, ?_⟩, hbook⟩
  · rw [hbook]
    exact h.coherent.eraseEntry inodeId
  · rw [hbook]
    exact h.within.eraseEntry hentry

theorem removeCreateOpening_run
    {operationId : CreateFileOperationId} {opening : CreateOpeningSession}
    (hfound : state.createOpenings.lookup operationId = some opening) :
    ∃ state', (removeCreateOpening operationId : Registry E _) state =
        (.ok (some opening), state') ∧
      state'.Sound registry ∧ state'.book = state.book.eraseCreate operationId := by
  obtain ⟨state', hrun, hindexed, hbook⟩ :=
    h.indexed.removeCreateOpening_run hfound (h.coherent.createChain hfound)
  refine ⟨state', hrun, ⟨hindexed, ?_, ?_⟩, hbook⟩
  · rw [hbook]
    exact h.coherent.eraseCreate operationId
  · rw [hbook]
    exact h.within.eraseCreate hfound

theorem nextExpiry_session {time : ℕ} {inodeId : InodeId}
    (hnext : nextExpiry state = some (.session time inodeId)) :
    ∃ entry, state.entries.lookup inodeId = some entry ∧ entry.retirementAtMs = time := by
  have hget := state.entriesByExpiry.mem_entries_iff.1 (List.mem_of_head? (nextExpiry_head hnext))
  obtain ⟨found, entry, hentry, hitem⟩ := (h.indexed.expiries _).1 hget
  rw [toLex_inj, Prod.mk.injEq] at hitem
  exact ⟨entry, hitem.2 ▸ hentry, hitem.1⟩

theorem nextExpiry_create {time : ℕ} {openingId : WriteOpeningId}
    (hnext : nextExpiry state = some (.create time openingId)) :
    ∃ operationId opening, state.createOpenings.lookup operationId = some opening ∧
      opening.expiresAtMs = time ∧
      state.createOpeningOperations.lookup openingId = some operationId := by
  have hget :=
    state.createOpeningsByExpiry.mem_entries_iff.1 (List.mem_of_head? (nextExpiry_head hnext))
  obtain ⟨operationId, opening, hopening, hitem⟩ := (h.indexed.createExpiries _).1 hget
  rw [toLex_inj, Prod.mk.injEq] at hitem
  exact ⟨operationId, opening, hopening, hitem.1,
    (h.indexed.createOperations _ _).2 ⟨opening, hopening, congrArg some hitem.2⟩⟩

theorem retireNext_run {next : NextExpiry} (hnext : nextExpiry state = some next) :
    ∃ state', (retireNext next : Registry E Unit) state = (.ok (), state') ∧
      state'.Sound registry ∧ SessionBook.Retires state.book next state'.book := by
  cases next with
  | session time inodeId =>
    obtain ⟨entry, hentry, htime⟩ := h.nextExpiry_session hnext
    obtain ⟨state', hrun, hsound, hbook⟩ := h.removeEntry_run (E := E) hentry
    refine ⟨state', ?_, hsound, entry, hentry, htime, hbook⟩
    simp only [retireNext]
    rw [bind_of_ok hrun]
    rfl
  | create =>
    obtain ⟨operationId, opening, hopening, htime, hoperation⟩ := h.nextExpiry_create hnext
    obtain ⟨found, hfound, hid⟩ := (h.indexed.createOperations _ _).1 hoperation
    cases hopening.symm.trans hfound
    obtain ⟨state', hrun, hsound, hbook⟩ := h.removeCreateOpening_run (E := E) hopening
    refine ⟨state', ?_, hsound, operationId, opening, hopening, htime, Option.some.inj hid, hbook⟩
    simp only [retireNext]
    rw [current_bind, expect_bind hoperation, bind_of_ok hrun]
    rfl

end

theorem retireLoop_run (nowMs budget : ℕ) : ∀ {state : SessionRegistryState}, state.Sound registry →
      ∃ retired state', (retireLoop nowMs budget : Registry E ℕ) state = (.ok retired, state') ∧
        state'.Sound registry ∧ SessionBook.Swept nowMs state.book state'.book := by
  induction budget with
  | zero =>
    intro state h
    exact ⟨0, state, rfl, h, SessionBook.Swept.refl nowMs state.book⟩
  | succ budget ih =>
    intro state h
    simp only [retireLoop]
    rw [current_bind]
    cases hnext : nextExpiry state with
    | none => exact ⟨0, state, rfl, h, SessionBook.Swept.refl nowMs state.book⟩
    | some next =>
      by_cases hlive : next.expiresAtMs > nowMs
      · simp only [hlive, if_true]
        exact ⟨0, state, rfl, h, SessionBook.Swept.refl nowMs state.book⟩
      · simp only [hlive, if_false]
        obtain ⟨state', hrun, hsound, hretires⟩ := h.retireNext_run (E := E) hnext
        have hswept := hretires.swept (not_lt.1 hlive)
        obtain ⟨retired, state'', hloop, hsound', hswept'⟩ := ih hsound
        refine ⟨retired + 1, state'', ?_, hsound', hswept.trans hswept'⟩
        rw [bind_of_ok hrun, bind_of_ok hloop]
        rfl

section

variable (h : state.Sound registry)
include h

theorem retireExpiredEntries_run (nowMs : ℕ) :
    ∃ retired state', (retireExpiredEntries nowMs : Registry E ℕ) state = (.ok retired, state') ∧
      state'.Sound registry ∧ SessionBook.Swept nowMs state.book state'.book :=
  retireLoop_run nowMs maxExpiredSessionRetirementsPerCall h

theorem retireExpiredEntryForInode_run (inodeId : InodeId) (nowMs : ℕ) :
    ∃ retired state', (retireExpiredEntryForInode inodeId nowMs : Registry E Bool) state =
        (.ok retired, state') ∧
      state'.Sound registry ∧ SessionBook.Swept nowMs state.book state'.book ∧
      ∀ entry, state'.entries.lookup inodeId = some entry → nowMs < entry.retirementAtMs := by
  unfold retireExpiredEntryForInode
  rw [current_bind]
  cases hentry : state.entries.lookup inodeId with
  | none =>
    refine ⟨false, state, rfl, h, SessionBook.Swept.refl nowMs state.book, ?_⟩
    intro entry hfound
    rw [hentry] at hfound
    cases hfound
  | some entry =>
    by_cases hexpired : entry.retirementAtMs ≤ nowMs
    · obtain ⟨state', hrun, hsound, hbook⟩ := h.removeEntry_run (E := E) hentry
      simp only [hexpired, if_true]
      refine ⟨true, state', ?_, hsound, ?_, ?_⟩
      · rw [bind_of_ok hrun]
        rfl
      · rw [hbook]
        exact SessionBook.Swept.eraseEntry hentry hexpired
      · intro found hfound
        have hentries : state'.entries = state.entries.erase inodeId :=
          congrArg SessionBook.entries hbook
        rw [hentries, lookup_erase_eq, if_pos rfl] at hfound
        cases hfound
    · simp only [hexpired, if_false]
      refine ⟨false, state, rfl, h, SessionBook.Swept.refl nowMs state.book, ?_⟩
      intro found hfound
      rw [hentry] at hfound
      cases hfound
      exact not_le.1 hexpired

theorem retireFor_run (inodeId : InodeId) (nowMs : ℕ) :
    ∃ state', (retireFor inodeId nowMs : Registry E Unit) state = (.ok (), state') ∧
      state'.Sound registry ∧ SessionBook.Swept nowMs state.book state'.book ∧
      ∀ entry, state'.entries.lookup inodeId = some entry → nowMs < entry.retirementAtMs := by
  obtain ⟨retired, mid, hinode, hmid, hswept, hlive⟩ :=
    h.retireExpiredEntryForInode_run (E := E) inodeId nowMs
  obtain ⟨count, state', hall, hsound, hswept'⟩ := hmid.retireExpiredEntries_run (E := E) nowMs
  refine ⟨state', ?_, hsound, hswept.trans hswept', ?_⟩
  · unfold retireFor
    rw [bind_of_ok hinode, bind_of_ok hall]
    rfl
  · intro entry hfound
    exact hlive entry (hswept'.lookup_of_some hfound)

theorem retireExpiredCreateOpeningForOperation_run
    (operationId : CreateFileOperationId) (nowMs : ℕ) : ∃ retired state',
      (retireExpiredCreateOpeningForOperation operationId nowMs : Registry E Bool) state =
        (.ok retired, state') ∧
      state'.Sound registry ∧ SessionBook.Swept nowMs state.book state'.book := by
  unfold retireExpiredCreateOpeningForOperation
  rw [current_bind]
  cases hopening : state.createOpenings.lookup operationId with
  | none => exact ⟨false, state, rfl, h, SessionBook.Swept.refl nowMs state.book⟩
  | some opening =>
    by_cases hexpired : opening.expiresAtMs ≤ nowMs
    · obtain ⟨state', hrun, hsound, hbook⟩ := h.removeCreateOpening_run (E := E) hopening
      simp only [hexpired, if_true]
      refine ⟨true, state', ?_, hsound, ?_⟩
      · rw [bind_of_ok hrun]
        rfl
      · rw [hbook]
        exact SessionBook.Swept.eraseCreate hopening hexpired
    · simp only [hexpired, if_false]
      exact ⟨false, state, rfl, h, SessionBook.Swept.refl nowMs state.book⟩

end

end SessionRegistryState.Sound

end Beryl
