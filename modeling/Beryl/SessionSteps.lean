import Beryl.SessionEffects

/-!
# What one call does to one session

The effects, read at one inode: an active session is born by an activation, changes
by the steps of `SessionStep`, and ends by its commit or its removal.  Whatever is to
be shown of a session along a run follows from these cases.
-/

namespace Beryl

open SessionBook SessionBook.Swept

/-- How a call changes the active session of one inode.  `nextPublicationId` is the
identity that the next publication gets. -/
inductive SessionStep (registry : SessionRegistry) (nextPublicationId : ℕ)
    (inodeId : InodeId) : RegistryCall → WriteSession → WriteSession → Prop
  | idle {call session} :
      SessionStep registry nextPublicationId inodeId call session session
  | reserved {leaseEpoch previousBlockId nowMs session fileOffset}
      (hepoch : session.leaseEpoch = leaseEpoch)
      (hstep : session.issuedSteps.lookup previousBlockId = none)
      (hpublication : session.activePublication = none)
      (hprevious : previousBlockId = session.lastIssued)
      (hpending : session.pendingAllocateBlock = none)
      (hoffset : nextTargetFileOffset session = .ok fileOffset)
      (hroom : session.issuedTargets.length < registry.maxWriteTargetsPerSession) :
      SessionStep registry nextPublicationId inodeId
        (.beginAllocateBlock inodeId leaseEpoch previousBlockId nowMs) session
        { session with pendingAllocateBlock := some ⟨previousBlockId⟩ }
  | issued {owner target nowMs session} (hinode : owner.inodeId = inodeId)
      (hepoch : session.leaseEpoch = owner.leaseEpoch)
      (hpending : session.pendingAllocateBlock = some owner.pending)
      (htarget : validateWriteTarget session owner.leaseEpoch target = .ok ()) :
      SessionStep registry nextPublicationId inodeId (.completeTarget owner target nowMs)
        session (session.issued owner.pending target)
  | refusedTarget {owner target nowMs session} (hinode : owner.inodeId = inodeId)
      (hepoch : session.leaseEpoch = owner.leaseEpoch)
      (hpending : session.pendingAllocateBlock = some owner.pending) :
      SessionStep registry nextPublicationId inodeId (.completeTarget owner target nowMs)
        session { session with pendingAllocateBlock := none }
  | releasedTarget {owner session} (hinode : owner.inodeId = inodeId)
      (hepoch : session.leaseEpoch = owner.leaseEpoch)
      (hpending : session.pendingAllocateBlock = some owner.pending) :
      SessionStep registry nextPublicationId inodeId (.dropReservation owner) session
        { session with pendingAllocateBlock := none }
  | publishing {leaseEpoch nowMs session} (hepoch : session.leaseEpoch = leaseEpoch)
      (hpending : session.pendingAllocateBlock = none)
      (hpublication : session.activePublication = none) :
      SessionStep registry nextPublicationId inodeId
        (.beginPublication inodeId leaseEpoch nowMs) session
        { session with activePublication := some nextPublicationId }
  | submitted {owner nowMs session} (hinode : owner.session.inodeId = inodeId)
      (hepoch : session.leaseEpoch = owner.session.leaseEpoch)
      (hpublication : session.activePublication = some owner.publicationId)
      (hlive : nowMs < session.expiresAtMs) (howner : owner.submitted = false)
      (hunpinned : session.publicationSubmitted = false) :
      SessionStep registry nextPublicationId inodeId (.markSubmitted owner nowMs) session
        { session with publicationSubmitted := true }
  | syncReplayed {owner generation fileSize nowMs session}
      (hinode : owner.session.inodeId = inodeId)
      (hepoch : session.leaseEpoch = owner.session.leaseEpoch)
      (hpublication : session.activePublication = some owner.publicationId)
      (hgeneration : session.generation = generation) (hsize : session.baseSize = fileSize) :
      SessionStep registry nextPublicationId inodeId
        (.completeSync owner generation fileSize nowMs) session
        { session with
          mode := .append
          activePublication := none
          publicationSubmitted := false }
  | synced {owner generation fileSize nowMs session}
      (hinode : owner.session.inodeId = inodeId)
      (hepoch : session.leaseEpoch = owner.session.leaseEpoch)
      (hpublication : session.activePublication = some owner.publicationId)
      (hgeneration : checkedNext session.generation = some generation) :
      SessionStep registry nextPublicationId inodeId
        (.completeSync owner generation fileSize nowMs) session
        { session.synced generation fileSize
            (retainedTargetCount session.issuedTargets fileSize) with
          publicationSubmitted := false }
  | unpublished {owner session} (hinode : owner.session.inodeId = inodeId)
      (hepoch : session.leaseEpoch = owner.session.leaseEpoch)
      (hpublication : session.activePublication = some owner.publicationId)
      (howner : owner.submitted = false) (hunpinned : session.publicationSubmitted = false) :
      SessionStep registry nextPublicationId inodeId (.dropPublication owner) session
        { session with activePublication := none }
  | renewed {leaseEpoch clientId nowMs session} (hepoch : session.leaseEpoch = leaseEpoch)
      (hclient : session.openClientId = clientId) (hlive : nowMs < session.expiresAtMs) :
      SessionStep registry nextPublicationId inodeId
        (.renewSession inodeId leaseEpoch clientId nowMs) session
        { session with
          expiresAtMs := max (saturatingAddU64 nowMs registry.sessionTtlMs) session.expiresAtMs }

inductive SessionBirth (registry : SessionRegistry) (book : SessionBook) (inodeId : InodeId) :
    RegistryCall → WriteSession → Prop
  | activated {owner returnedLeaseEpoch file tail nowMs opening}
      (hinode : owner.inodeId = inodeId)
      (hopening : book.entries.lookup inodeId = some (.opening opening))
      (howner : opening.openingId = owner.openingId)
      (hepoch : opening.proposedLeaseEpoch = returnedLeaseEpoch)
      (hfile : file.leaseEpoch = returnedLeaseEpoch ∧ file.layout = opening.layout) :
      SessionBirth registry book inodeId
        (.activateOpening owner returnedLeaseEpoch file tail nowMs)
        (opening.activated file tail)
  | created {owner leaseEpoch expiresAtMs layout generation nowMs opening}
      (hnew : book.entries.lookup inodeId = none)
      (hopening : book.createOpenings.lookup owner.operationId = some opening)
      (howner : opening.openingId = owner.openingId) :
      SessionBirth registry book inodeId
        (.activateCreateOpening owner inodeId leaseEpoch expiresAtMs layout generation nowMs)
        (opening.activated owner.operationId inodeId leaseEpoch expiresAtMs layout generation)

inductive SessionEnd (inodeId : InodeId) (session : WriteSession) : RegistryCall → Prop
  | committed {owner} (hinode : owner.session.inodeId = inodeId)
      (hepoch : session.leaseEpoch = owner.session.leaseEpoch)
      (hpublication : session.activePublication = some owner.publicationId) :
      SessionEnd inodeId session (.completeCommit owner)
  | removed : SessionEnd inodeId session (.removeSessionIfEpoch inodeId session.leaseEpoch)

namespace SessionEffect

variable {registry : SessionRegistry} {call : RegistryCall} {book book' : SessionBook}

section

variable (h : SessionEffect registry call book book') {inodeId : InodeId}
include h

theorem origin
    {session' : WriteSession} (hsession' : book'.entries.lookup inodeId = some (.active session')) :
    (∃ session, book.entries.lookup inodeId = some (.active session) ∧
      SessionStep registry book.nextPublicationId inodeId call session session') ∨
    SessionBirth registry book inodeId call session' := by
  have hput : ∀ {inodeId₀ session session₀ book₀},
      (putEntry book₀ inodeId₀ (.active session₀)).entries.lookup inodeId =
        some (.active session') →
      book₀.entries = book.entries →
      book.entries.lookup inodeId₀ = some (.active session) →
      (inodeId₀ = inodeId →
        SessionStep registry book.nextPublicationId inodeId call session session₀) →
      ∃ session, book.entries.lookup inodeId = some (.active session) ∧
        SessionStep registry book.nextPublicationId inodeId call session session' := by
    intro inodeId₀ session session₀ book₀ hfound hbook hsession hstep
    rw [lookup_putEntry] at hfound
    split at hfound
    next heq =>
      subst heq
      cases hfound
      exact ⟨session, hsession, hstep rfl⟩
    next =>
      rw [hbook] at hfound
      exact ⟨session', hfound, .idle⟩
  cases h with
  | idle | reservedCreate | createExpired
  | cancelledCreate => exact .inl ⟨session', hsession', .idle⟩
  | opened =>
    rw [lookup_insertEntry] at hsession'
    split at hsession'
    · cases hsession'
    · exact .inl ⟨session', hsession', .idle⟩
  | activated hopening howner hlive hepoch hfile =>
    rw [lookup_putEntry] at hsession'
    split at hsession'
    next heq =>
      subst heq
      cases hsession'
      exact .inr (.activated rfl hopening howner hepoch hfile)
    next => exact .inl ⟨session', hsession', .idle⟩
  | created hopening howner hlive hnew =>
    rw [lookup_insertEntry] at hsession'
    split at hsession'
    next heq =>
      cases hsession'
      subst heq
      exact .inr (.created hnew hopening howner)
    next => exact .inl ⟨session', hsession', .idle⟩
  | cancelledOpening | committed
  | removed =>
    exact .inl ⟨session', lookup_of_eraseEntry hsession', .idle⟩
  | reserved hsession hepoch hstep hpublication hprevious hpending hoffset hroom =>
    refine .inl (hput hsession' rfl hsession ?_)
    rintro rfl
    exact .reserved hepoch hstep hpublication hprevious hpending hoffset hroom
  | issued hsession hepoch hpending htarget =>
    exact .inl (hput hsession' rfl hsession fun hinode => .issued hinode hepoch hpending htarget)
  | refusedTarget hsession hepoch hpending =>
    exact .inl (hput hsession' rfl hsession fun hinode => .refusedTarget hinode hepoch hpending)
  | releasedTarget hsession hepoch hpending =>
    exact .inl (hput hsession' rfl hsession fun hinode => .releasedTarget hinode hepoch hpending)
  | publishing hsession hepoch hpending hpublication =>
    refine .inl (hput hsession' rfl hsession ?_)
    rintro rfl
    exact .publishing hepoch hpending hpublication
  | submitted hsession hepoch hpublication hlive howner hunpinned =>
    exact .inl (hput hsession' rfl hsession fun hinode =>
      .submitted hinode hepoch hpublication hlive howner hunpinned)
  | syncReplayed hsession hepoch hpublication hgeneration hsize =>
    exact .inl (hput hsession' rfl hsession fun hinode =>
      .syncReplayed hinode hepoch hpublication hgeneration hsize)
  | synced hsession hepoch hpublication hgeneration =>
    exact .inl (hput hsession' rfl hsession fun hinode =>
      .synced hinode hepoch hpublication hgeneration)
  | unpublished hsession hepoch hpublication howner hunpinned =>
    exact .inl (hput hsession' rfl hsession fun hinode =>
      .unpublished hinode hepoch hpublication howner hunpinned)
  | renewed hsession hepoch hclient hlive =>
    refine .inl (hput hsession' rfl hsession ?_)
    rintro rfl
    exact .renewed hepoch hclient hlive

theorem stays
    {session : WriteSession} (hsession : book.entries.lookup inodeId = some (.active session)) :
    (∃ session', book'.entries.lookup inodeId = some (.active session')) ∨
      book'.entries.lookup inodeId = none ∧ SessionEnd inodeId session call := by
  have hput : ∀ {inodeId₀ session₀ book₀}, book₀.entries = book.entries →
      ∃ session', (putEntry book₀ inodeId₀ (.active session₀)).entries.lookup
        inodeId = some (.active session') := by
    intro inodeId₀ session₀ book₀ hbook
    rw [lookup_putEntry]
    split
    · exact ⟨session₀, rfl⟩
    · exact ⟨session, hbook ▸ hsession⟩
  have herase : ∀ {inodeId₀ entry}, book.entries.lookup inodeId₀ = some entry →
      (inodeId₀ = inodeId → entry = .active session → SessionEnd inodeId session call) →
      (∃ session', (book.eraseEntry inodeId₀).entries.lookup inodeId = some (.active session')) ∨
        (book.eraseEntry inodeId₀).entries.lookup inodeId = none ∧
          SessionEnd inodeId session call := by
    intro inodeId₀ entry hentry hend
    rw [lookup_eraseEntry]
    split
    next heq =>
      subst heq
      rw [hsession] at hentry
      exact .inr ⟨rfl, hend rfl (Option.some.inj hentry).symm⟩
    next => exact .inl ⟨session, hsession⟩
  cases h with
  | idle | reservedCreate | createExpired
  | cancelledCreate => exact .inl ⟨session, hsession⟩
  | opened hchain hnew | created hopening howner hlive hnew =>
    rw [lookup_insertEntry, if_neg]
    · exact .inl ⟨session, hsession⟩
    · rintro rfl
      exact absurd (hsession.symm.trans hnew) nofun
  | activated | reserved | issued | refusedTarget
  | releasedTarget | publishing | submitted | syncReplayed | synced | unpublished | renewed =>
    exact .inl (hput rfl)
  | cancelledOpening hopening => exact herase hopening fun _ heq => nomatch heq
  | committed hfound hepoch hpublication =>
    refine herase hfound ?_
    rintro hinode ⟨⟩
    exact .committed hinode hepoch hpublication
  | removed hfound hepoch =>
    refine herase hfound ?_
    rintro rfl ⟨⟩
    rw [← hepoch]
    exact .removed

theorem fate
    {session : WriteSession} (hsession : book.entries.lookup inodeId = some (.active session)) :
    (∃ session', book'.entries.lookup inodeId = some (.active session') ∧
      SessionStep registry book.nextPublicationId inodeId call session session') ∨
    book'.entries.lookup inodeId = none ∧ SessionEnd inodeId session call := by
  rcases h.stays hsession with ⟨session', hsession'⟩ | hend
  · left
    refine ⟨session', hsession', ?_⟩
    rcases h.origin hsession' with ⟨found, hfound, hstep⟩ | hbirth
    · cases hsession.symm.trans hfound
      exact hstep
    · cases hbirth with
      | activated hinode hopening => cases hsession.symm.trans hopening
      | created hnew => cases hsession.symm.trans hnew
  · exact .inr hend

theorem opening_origin
    {opening : OpeningSession} (hopening : book'.entries.lookup inodeId = some (.opening opening)) :
    book.entries.lookup inodeId = some (.opening opening) ∨ opening.openingId = book.nextOpeningId ∧
        ∃ input nowMs, call = .beginSession input nowMs ∧ inodeId = input.inodeId := by
  have hput : ∀ {inodeId₀ session₀ book₀}, book₀.entries = book.entries →
      (putEntry book₀ inodeId₀ (.active session₀)).entries.lookup inodeId =
        some (.opening opening) →
      book.entries.lookup inodeId = some (.opening opening) := by
    intro inodeId₀ session₀ book₀ hbook hfound
    rw [lookup_putEntry] at hfound
    split at hfound
    · cases hfound
    · exact hbook ▸ hfound
  cases h with
  | opened =>
    rw [lookup_insertEntry] at hopening
    split at hopening
    next hinode =>
      cases hopening
      exact .inr ⟨rfl, _, _, rfl, hinode⟩
    · exact .inl hopening
  | idle | reservedCreate | createExpired | cancelledCreate => exact .inl hopening
  | created => exact .inl (hput rfl hopening)
  | cancelledOpening | committed | removed => exact .inl (lookup_of_eraseEntry hopening)
  | _ => exact .inl (hput rfl hopening)

theorem create_origin {operationId : CreateFileOperationId} {opening : CreateOpeningSession}
    (hopening : book'.createOpenings.lookup operationId = some opening) :
    book.createOpenings.lookup operationId = some opening ∨
      opening.openingId = book.nextOpeningId := by
  cases h with
  | reservedCreate =>
    rw [lookup_insertCreate] at hopening
    split at hopening
    · cases hopening
      exact .inr rfl
    · exact .inl hopening
  | created | createExpired | cancelledCreate =>
    exact .inl (lookup_of_eraseCreate hopening)
  | _ => exact .inl hopening

theorem inert {owner : RegistryOwner}
    (howner : call.owner? = some owner) (hstale : ¬owner.Current book) : book' = book := by
  cases h with
  | idle => rfl
  | activated hopening hid | created hopening hid | createExpired hopening hid
  | cancelledOpening hopening hid | cancelledCreate hopening hid =>
    cases howner
    exact absurd ⟨_, hopening, hid⟩ hstale
  | issued hsession hepoch | refusedTarget hsession hepoch | releasedTarget hsession hepoch
  | submitted hsession hepoch | syncReplayed hsession hepoch | synced hsession hepoch
  | committed hsession hepoch | unpublished hsession hepoch =>
    cases howner
    exact absurd ⟨_, hsession, hepoch⟩ hstale
  | _ => cases howner

theorem nextPublicationId_le : book.nextPublicationId ≤ book'.nextPublicationId := by
  cases h with
  | publishing => exact Nat.le_succ _
  | _ => exact le_rfl

theorem nextOpeningId_le : book.nextOpeningId ≤ book'.nextOpeningId := by
  cases h with
  | opened | reservedCreate => exact Nat.le_succ _
  | _ => exact le_rfl

end

end SessionEffect

namespace RegistryCall

variable {registry : SessionRegistry} {call : RegistryCall} {book mid book' : SessionBook}
  {inodeId : InodeId}

section

variable (h : call.Sweeps book mid)
include h

theorem Sweeps.lookup_of_some {entry : WriteSessionEntry}
    (hentry : mid.entries.lookup inodeId = some entry) :
    book.entries.lookup inodeId = some entry := by
  unfold Sweeps at h
  split at h
  · exact SessionBook.Swept.lookup_of_some h hentry
  · rw [← h]
    exact hentry

theorem Sweeps.createLookup_of_some
    {operationId : CreateFileOperationId} {opening : CreateOpeningSession}
    (hopening : mid.createOpenings.lookup operationId = some opening) :
    book.createOpenings.lookup operationId = some opening := by
  unfold Sweeps at h
  split at h
  · rcases creates h operationId with hsame | ⟨hnone, -⟩
    · exact hsame ▸ hopening
    · cases hnone.symm.trans hopening
  · rw [← h]
    exact hopening

theorem Sweeps.lookup_or_expired {entry : WriteSessionEntry}
    (hentry : book.entries.lookup inodeId = some entry) : mid.entries.lookup inodeId = some entry ∨
      ∃ nowMs, call.clock = some nowMs ∧ entry.retirementAtMs ≤ nowMs := by
  unfold Sweeps at h
  split at h
  next nowMs hclock =>
    by_cases hlive : nowMs < entry.retirementAtMs
    · exact .inl (h.lookup_of_live hentry hlive)
    · exact .inr ⟨nowMs, hclock, not_lt.1 hlive⟩
  next =>
    rw [h]
    exact .inl hentry

theorem Sweeps.nextPublicationId : mid.nextPublicationId = book.nextPublicationId := by
  unfold Sweeps at h
  split at h
  · exact SessionBook.Swept.nextPublicationId h
  · rw [h]

theorem Sweeps.nextOpeningId : mid.nextOpeningId = book.nextOpeningId := by
  unfold Sweeps at h
  split at h
  · exact SessionBook.Swept.nextOpeningId h
  · rw [h]

end

section

variable (h : call.Moves registry book book')
include h

theorem Moves.origin {session' : WriteSession}
    (hsession' : book'.entries.lookup inodeId = some (.active session')) :
    (∃ session, book.entries.lookup inodeId = some (.active session) ∧
      SessionStep registry book.nextPublicationId inodeId call session session') ∨
    ∃ mid, call.Sweeps book mid ∧ SessionBirth registry mid inodeId call session' := by
  obtain ⟨mid, hsweeps, heffect⟩ := h
  rcases heffect.origin hsession' with ⟨session, hsession, hstep⟩ | hbirth
  · rw [hsweeps.nextPublicationId] at hstep
    exact .inl ⟨session, hsweeps.lookup_of_some hsession, hstep⟩
  · exact .inr ⟨mid, hsweeps, hbirth⟩

theorem Moves.fate {session : WriteSession}
    (hsession : book.entries.lookup inodeId = some (.active session)) :
    (∃ session', book'.entries.lookup inodeId = some (.active session') ∧
      SessionStep registry book.nextPublicationId inodeId call session session') ∨
    (book'.entries.lookup inodeId = none ∧ SessionEnd inodeId session call) ∨
    ∃ nowMs, call.clock = some nowMs ∧ session.retirementAtMs ≤ nowMs := by
  obtain ⟨mid, hsweeps, heffect⟩ := h
  rcases hsweeps.lookup_or_expired hsession with hmid | hexpired
  · rw [← hsweeps.nextPublicationId]
    rcases heffect.fate hmid with hstep | hend
    · exact .inl hstep
    · exact .inr (.inl hend)
  · exact .inr (.inr hexpired)

theorem Moves.nextPublicationId_le : book.nextPublicationId ≤ book'.nextPublicationId := by
  obtain ⟨mid, hsweeps, heffect⟩ := h
  rw [← hsweeps.nextPublicationId]
  exact heffect.nextPublicationId_le

theorem Moves.nextOpeningId_le : book.nextOpeningId ≤ book'.nextOpeningId := by
  obtain ⟨mid, hsweeps, heffect⟩ := h
  rw [← hsweeps.nextOpeningId]
  exact heffect.nextOpeningId_le

end

end RegistryCall

theorem SessionBirth.publication {registry : SessionRegistry} {book : SessionBook}
    {inodeId : InodeId} {call : RegistryCall} {session : WriteSession}
    (h : SessionBirth registry book inodeId call session) : session.activePublication = none := by
  cases h <;> rfl

namespace SessionStep

variable {registry : SessionRegistry} {nextPublicationId : ℕ} {inodeId : InodeId}
  {call : RegistryCall} {session session' : WriteSession}

theorem publication (h : SessionStep registry nextPublicationId inodeId call session session')
    {publicationId : WritePublicationId}
    (hpublication : session'.activePublication = some publicationId) :
    session.activePublication = some publicationId ∧
      session'.publicationSubmitted = session.publicationSubmitted ∨
    publicationId = nextPublicationId ∨
    ∃ owner nowMs, call = .markSubmitted owner nowMs ∧ owner.session.inodeId = inodeId ∧
      owner.publicationId = publicationId := by
  cases h with
  | publishing => exact .inr (.inl (Option.some.inj hpublication).symm)
  | submitted hinode hepoch howned =>
    exact .inr (.inr ⟨_, _, rfl, hinode, Option.some.inj (howned.symm.trans hpublication)⟩)
  | syncReplayed | synced | unpublished => cases hpublication
  | _ => exact .inl ⟨hpublication, rfl⟩

end SessionStep

end Beryl
