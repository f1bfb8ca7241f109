import Beryl.SessionSound

/-!
# The effect of each registry call on the sessions

`SessionEffect call book book'` says what one call may do to the primary maps once its
sweep is over.  It is the registry without its indexes: a transition system on
sessions.  Every method refines it: from a sound state it answers, or refuses, after
a sweep and one effect of its own call, and the state stays sound.
-/

namespace Beryl

open Transaction Registry HashMap WriteSession

inductive RegistryCall
  | beginSession (input : BeginSessionInput) (nowMs : ℕ)
  | beginCreateSession (input : BeginCreateSessionInput) (nowMs : ℕ)
  | activateOpening (owner : WriteOpening) (returnedLeaseEpoch : LeaseEpoch) (file : FileData)
      (tail : Option LocatedBlock) (nowMs : ℕ)
  | activateCreateOpening (owner : CreateOpening) (inodeId : InodeId)
      (leaseEpoch : LeaseEpoch) (expiresAtMs : ℕ) (layout : FileLayout)
      (generation : ContentGeneration) (nowMs : ℕ)
  | dropOpening (owner : WriteOpening)
  | dropCreateOpening (owner : CreateOpening)
  | beginAllocateBlock (inodeId : InodeId) (leaseEpoch : LeaseEpoch)
      (previousBlockId : Option BlockId) (nowMs : ℕ)
  | completeTarget (owner : WriteTargetReservation) (target : LocatedBlock) (nowMs : ℕ)
  | dropReservation (owner : WriteTargetReservation)
  | beginPublication (inodeId : InodeId) (leaseEpoch : LeaseEpoch) (nowMs : ℕ)
  | revalidate (owner : WritePublication) (nowMs : ℕ)
  | markSubmitted (owner : WritePublication) (nowMs : ℕ)
  | completeSync (owner : WritePublication) (generation : ContentGeneration)
      (fileSize nowMs : ℕ)
  | completeCommit (owner : WritePublication)
  | dropPublication (owner : WritePublication)
  | getSession (inodeId : InodeId) (nowMs : ℕ)
  | removeSessionIfEpoch (inodeId : InodeId) (leaseEpoch : LeaseEpoch)
  | validateSession (inodeId : InodeId) (leaseEpoch : LeaseEpoch) (nowMs : ℕ)
  | renewSession (inodeId : InodeId) (leaseEpoch : LeaseEpoch) (clientId : ClientId)
      (nowMs : ℕ)
  | retireExpiredBatch (nowMs : ℕ)
  | hasActiveWriteUnder (inodeId : InodeId) (nowMs : ℕ)

def RegistryCall.clock : RegistryCall → Option ℕ
  | beginSession _ nowMs => some nowMs
  | beginCreateSession _ nowMs => some nowMs
  | activateOpening _ _ _ _ nowMs => some nowMs
  | activateCreateOpening _ _ _ _ _ _ _ => none
  | dropOpening _ => none
  | dropCreateOpening _ => none
  | beginAllocateBlock _ _ _ nowMs => some nowMs
  | completeTarget _ _ nowMs => some nowMs
  | dropReservation _ => none
  | beginPublication _ _ nowMs => some nowMs
  | revalidate _ nowMs => some nowMs
  | markSubmitted _ _ => none
  | completeSync _ _ _ nowMs => some nowMs
  | completeCommit _ => none
  | dropPublication _ => none
  | getSession _ nowMs => some nowMs
  | removeSessionIfEpoch _ _ => none
  | validateSession _ _ nowMs => some nowMs
  | renewSession _ _ _ nowMs => some nowMs
  | retireExpiredBatch nowMs => some nowMs
  | hasActiveWriteUnder _ nowMs => some nowMs

inductive RegistryOwner
  | opening (owner : WriteOpening)
  | createOpening (owner : CreateOpening)
  | reservation (owner : WriteTargetReservation)
  | publication (owner : WritePublication)
deriving DecidableEq

def RegistryCall.owner? : RegistryCall → Option RegistryOwner
  | activateOpening owner _ _ _ _ => some (.opening owner)
  | activateCreateOpening owner _ _ _ _ _ _ => some (.createOpening owner)
  | dropOpening owner => some (.opening owner)
  | dropCreateOpening owner => some (.createOpening owner)
  | completeTarget owner _ _ => some (.reservation owner)
  | dropReservation owner => some (.reservation owner)
  | revalidate owner _ => some (.publication owner)
  | markSubmitted owner _ => some (.publication owner)
  | completeSync owner _ _ _ => some (.publication owner)
  | completeCommit owner => some (.publication owner)
  | dropPublication owner => some (.publication owner)
  | _ => none

def RegistryOwner.Current (book : SessionBook) : RegistryOwner → Prop
  | opening owner => ∃ found, book.entries.lookup owner.inodeId = some (.opening found) ∧
      found.openingId = owner.openingId
  | createOpening owner => ∃ found, book.createOpenings.lookup owner.operationId = some found ∧
      found.openingId = owner.openingId
  | reservation owner => ∃ session,
      book.entries.lookup owner.inodeId = some (.active session) ∧
        session.leaseEpoch = owner.leaseEpoch
  | publication owner => ∃ session,
      book.entries.lookup owner.session.inodeId = some (.active session) ∧
        session.leaseEpoch = owner.session.leaseEpoch

structure SessionBook.Admits (book : SessionBook) (registry : SessionRegistry)
    (clientId : ClientId) : Prop where
  sessions : book.entries.len + book.createOpenings.len < registry.maxSessions
  perClient : book.clientLoad clientId < registry.maxSessionsPerClient

inductive SessionEffect (registry : SessionRegistry) :
    RegistryCall → SessionBook → SessionBook → Prop
  | idle {call book} : SessionEffect registry call book book
  | opened {input nowMs epoch book}
      (hchain : validateAncestorChain input.inodeId input.ancestorInodeIds = .ok ())
      (hnew : book.entries.lookup input.inodeId = none)
      (hadmitted : book.Admits registry input.openClientId)
      (hepoch : checkedNext input.currentLeaseEpoch = some epoch) :
      SessionEffect registry (.beginSession input nowMs) book
        (SessionBook.insertEntry { book with nextOpeningId := book.nextOpeningId + 1 }
          (.opening (input.opening book.nextOpeningId epoch
            (saturatingAddU64 nowMs registry.sessionTtlMs))))
  | reservedCreate {input nowMs book}
      (hchain : validateParentAncestorChain input.parentAncestorInodeIds = .ok ())
      (hnew : book.createOpenings.lookup input.operationId = none)
      (hidle : ∀ inodeId entry, book.entries.lookup inodeId = some entry →
        entry.createOperation ≠ some input.operationId)
      (hadmitted : book.Admits registry input.openClientId) :
      SessionEffect registry (.beginCreateSession input nowMs) book
        (SessionBook.insertCreate { book with nextOpeningId := book.nextOpeningId + 1 }
          (input.opening book.nextOpeningId (saturatingAddU64 nowMs registry.sessionTtlMs)))
  | activated {owner returnedLeaseEpoch file tail nowMs book opening}
      (hopening : book.entries.lookup owner.inodeId = some (.opening opening))
      (howner : opening.openingId = owner.openingId)
      (hlive : nowMs < opening.expiresAtMs)
      (hepoch : opening.proposedLeaseEpoch = returnedLeaseEpoch)
      (hfile : file.leaseEpoch = returnedLeaseEpoch ∧ file.layout = opening.layout)
      (htail : tail.isSome → book.targetLoad < registry.maxWriteTargets) :
      SessionEffect registry (.activateOpening owner returnedLeaseEpoch file tail nowMs) book
        (book.putEntry owner.inodeId (.active (opening.activated file tail)))
  | created {owner inodeId leaseEpoch expiresAtMs layout generation nowMs book opening}
      (hopening : book.createOpenings.lookup owner.operationId = some opening)
      (howner : opening.openingId = owner.openingId)
      (hlive : nowMs < expiresAtMs)
      (hnew : book.entries.lookup inodeId = none)
      (hchain : validateAncestorChain inodeId (opening.parentAncestorInodeIds ++ [inodeId]) =
        .ok ()) :
      SessionEffect registry
        (.activateCreateOpening owner inodeId leaseEpoch expiresAtMs layout generation nowMs)
        book
        ((book.eraseCreate owner.operationId).insertEntry (.active (opening.activated
          owner.operationId inodeId leaseEpoch expiresAtMs layout generation)))
  | createExpired {owner inodeId leaseEpoch expiresAtMs layout generation nowMs book opening}
      (hopening : book.createOpenings.lookup owner.operationId = some opening)
      (howner : opening.openingId = owner.openingId) :
      SessionEffect registry
        (.activateCreateOpening owner inodeId leaseEpoch expiresAtMs layout generation nowMs)
        book (book.eraseCreate owner.operationId)
  | cancelledOpening {owner book opening}
      (hopening : book.entries.lookup owner.inodeId = some (.opening opening))
      (howner : opening.openingId = owner.openingId) :
      SessionEffect registry (.dropOpening owner) book (book.eraseEntry owner.inodeId)
  | cancelledCreate {owner book opening}
      (hopening : book.createOpenings.lookup owner.operationId = some opening)
      (howner : opening.openingId = owner.openingId) :
      SessionEffect registry (.dropCreateOpening owner) book (book.eraseCreate owner.operationId)
  | reserved {inodeId leaseEpoch previousBlockId nowMs book session fileOffset}
      (hsession : book.entries.lookup inodeId = some (.active session))
      (hepoch : session.leaseEpoch = leaseEpoch)
      (hstep : session.issuedSteps.lookup previousBlockId = none)
      (hpublication : session.activePublication = none)
      (hprevious : previousBlockId = session.lastIssued)
      (hpending : session.pendingAllocateBlock = none)
      (hoffset : nextTargetFileOffset session = .ok fileOffset)
      (hroom : session.issuedTargets.length < registry.maxWriteTargetsPerSession)
      (htotal : book.targetLoad < registry.maxWriteTargets) :
      SessionEffect registry (.beginAllocateBlock inodeId leaseEpoch previousBlockId nowMs) book
        (book.putEntry inodeId
          (.active { session with pendingAllocateBlock := some ⟨previousBlockId⟩ }))
  | issued {owner target nowMs book session}
      (hsession : book.entries.lookup owner.inodeId = some (.active session))
      (hepoch : session.leaseEpoch = owner.leaseEpoch)
      (hpending : session.pendingAllocateBlock = some owner.pending)
      (htarget : validateWriteTarget session owner.leaseEpoch target = .ok ()) :
      SessionEffect registry (.completeTarget owner target nowMs) book
        (book.putEntry owner.inodeId (.active (session.issued owner.pending target)))
  | refusedTarget {owner target nowMs book session}
      (hsession : book.entries.lookup owner.inodeId = some (.active session))
      (hepoch : session.leaseEpoch = owner.leaseEpoch)
      (hpending : session.pendingAllocateBlock = some owner.pending) :
      SessionEffect registry (.completeTarget owner target nowMs) book
        (book.putEntry owner.inodeId (.active { session with pendingAllocateBlock := none }))
  | releasedTarget {owner book session}
      (hsession : book.entries.lookup owner.inodeId = some (.active session))
      (hepoch : session.leaseEpoch = owner.leaseEpoch)
      (hpending : session.pendingAllocateBlock = some owner.pending) :
      SessionEffect registry (.dropReservation owner) book
        (book.putEntry owner.inodeId (.active { session with pendingAllocateBlock := none }))
  | publishing {inodeId leaseEpoch nowMs book session}
      (hsession : book.entries.lookup inodeId = some (.active session))
      (hepoch : session.leaseEpoch = leaseEpoch)
      (hpending : session.pendingAllocateBlock = none)
      (hpublication : session.activePublication = none) :
      SessionEffect registry (.beginPublication inodeId leaseEpoch nowMs) book
        (SessionBook.putEntry { book with nextPublicationId := book.nextPublicationId + 1 }
          inodeId (.active { session with activePublication := some book.nextPublicationId }))
  | submitted {owner nowMs book session}
      (hsession : book.entries.lookup owner.session.inodeId = some (.active session))
      (hepoch : session.leaseEpoch = owner.session.leaseEpoch)
      (hpublication : session.activePublication = some owner.publicationId)
      (hlive : nowMs < session.expiresAtMs) (howner : owner.submitted = false)
      (hunpinned : session.publicationSubmitted = false) :
      SessionEffect registry (.markSubmitted owner nowMs) book
        (book.putEntry owner.session.inodeId
          (.active { session with publicationSubmitted := true }))
  | syncReplayed {owner generation fileSize nowMs book session}
      (hsession : book.entries.lookup owner.session.inodeId = some (.active session))
      (hepoch : session.leaseEpoch = owner.session.leaseEpoch)
      (hpublication : session.activePublication = some owner.publicationId)
      (hgeneration : session.generation = generation) (hsize : session.baseSize = fileSize) :
      SessionEffect registry (.completeSync owner generation fileSize nowMs) book
        (book.putEntry owner.session.inodeId
          (.active { session with
            mode := .append
            activePublication := none
            publicationSubmitted := false }))
  | synced {owner generation fileSize nowMs book session}
      (hsession : book.entries.lookup owner.session.inodeId = some (.active session))
      (hepoch : session.leaseEpoch = owner.session.leaseEpoch)
      (hpublication : session.activePublication = some owner.publicationId)
      (hgeneration : checkedNext session.generation = some generation) :
      SessionEffect registry (.completeSync owner generation fileSize nowMs) book
        (book.putEntry owner.session.inodeId
          (.active { session.synced generation fileSize
              (retainedTargetCount session.issuedTargets fileSize) with
            publicationSubmitted := false }))
  | committed {owner book session}
      (hsession : book.entries.lookup owner.session.inodeId = some (.active session))
      (hepoch : session.leaseEpoch = owner.session.leaseEpoch)
      (hpublication : session.activePublication = some owner.publicationId) :
      SessionEffect registry (.completeCommit owner) book (book.eraseEntry owner.session.inodeId)
  | unpublished {owner book session}
      (hsession : book.entries.lookup owner.session.inodeId = some (.active session))
      (hepoch : session.leaseEpoch = owner.session.leaseEpoch)
      (hpublication : session.activePublication = some owner.publicationId)
      (howner : owner.submitted = false) (hunpinned : session.publicationSubmitted = false) :
      SessionEffect registry (.dropPublication owner) book
        (book.putEntry owner.session.inodeId
          (.active { session with activePublication := none }))
  | removed {inodeId leaseEpoch book session}
      (hsession : book.entries.lookup inodeId = some (.active session))
      (hepoch : session.leaseEpoch = leaseEpoch) :
      SessionEffect registry (.removeSessionIfEpoch inodeId leaseEpoch) book
        (book.eraseEntry inodeId)
  | renewed {inodeId leaseEpoch clientId nowMs book session}
      (hsession : book.entries.lookup inodeId = some (.active session))
      (hepoch : session.leaseEpoch = leaseEpoch)
      (hclient : session.openClientId = clientId) (hlive : nowMs < session.expiresAtMs) :
      SessionEffect registry (.renewSession inodeId leaseEpoch clientId nowMs) book
        (book.putEntry inodeId (.active { session with
          expiresAtMs :=
            max (saturatingAddU64 nowMs registry.sessionTtlMs) session.expiresAtMs }))

inductive RefusalEffect : RegistryCall → SessionBook → SessionBook → Prop
  | idle {call book} : RefusalEffect call book book
  | createExpired {owner inodeId leaseEpoch expiresAtMs layout generation nowMs book opening}
      (hopening : book.createOpenings.lookup owner.operationId = some opening)
      (howner : opening.openingId = owner.openingId) :
      RefusalEffect
        (.activateCreateOpening owner inodeId leaseEpoch expiresAtMs layout generation nowMs)
        book (book.eraseCreate owner.operationId)
  | refusedTarget {owner target nowMs book session}
      (hsession : book.entries.lookup owner.inodeId = some (.active session))
      (hepoch : session.leaseEpoch = owner.leaseEpoch)
      (hpending : session.pendingAllocateBlock = some owner.pending) :
      RefusalEffect (.completeTarget owner target nowMs) book
        (book.putEntry owner.inodeId (.active { session with pendingAllocateBlock := none }))

theorem RefusalEffect.effect {registry : SessionRegistry} {call : RegistryCall}
    {book book' : SessionBook} (h : RefusalEffect call book book') :
    SessionEffect registry call book book' := by
  cases h with
  | idle => exact .idle
  | createExpired hopening howner => exact .createExpired hopening howner
  | refusedTarget hsession hepoch hpending => exact .refusedTarget hsession hepoch hpending

def RegistryCall.Sweeps (call : RegistryCall) (book mid : SessionBook) : Prop :=
  match call.clock with
  | some nowMs => SessionBook.Swept nowMs book mid
  | none => mid = book

/-- What a call does to the primary maps: a sweep at its clock value, then an effect. -/
def RegistryCall.Moves (registry : SessionRegistry) (call : RegistryCall)
    (book book' : SessionBook) : Prop :=
  ∃ mid, call.Sweeps book mid ∧ SessionEffect registry call mid book'

def RegistryCall.Refuses (call : RegistryCall) (book book' : SessionBook) : Prop :=
  ∃ mid, call.Sweeps book mid ∧ RefusalEffect call mid book'

theorem RegistryCall.Refuses.moves {registry : SessionRegistry} {call : RegistryCall}
    {book book' : SessionBook} (h : call.Refuses book book') : call.Moves registry book book' := by
  obtain ⟨mid, hsweeps, heffect⟩ := h
  exact ⟨mid, hsweeps, heffect.effect⟩

/-! ## Effects keep the sessions coherent -/

theorem nodup_of_validateAncestorChain {inodeId : InodeId} {chain : List InodeId}
    (h : validateAncestorChain inodeId chain = .ok ()) : chain.Nodup := by
  unfold validateAncestorChain at h
  split at h
  · cases h
  split at h
  · cases h
  split at h
  · cases h
  split at h
  · cases h
  next hnodup => exact not_not.1 hnodup

theorem nodup_of_validateParentAncestorChain {chain : List InodeId}
    (h : validateParentAncestorChain chain = .ok ()) : chain.Nodup := by
  unfold validateParentAncestorChain at h
  split at h
  · cases h
  split at h
  · cases h
  split at h
  · cases h
  next hnodup => exact not_not.1 hnodup

namespace SessionBook

variable {book book' : SessionBook} {registry : SessionRegistry} {inodeId inodeId' : InodeId}
  {entry found : WriteSessionEntry}

theorem lookup_putEntry (book : SessionBook) (inodeId inodeId' : InodeId)
    (entry : WriteSessionEntry) : (book.putEntry inodeId entry).entries.lookup inodeId' =
      if inodeId' = inodeId then some entry else book.entries.lookup inodeId' :=
  lookup_insert_eq _ _ _ _

theorem lookup_insertEntry (book : SessionBook) (entry : WriteSessionEntry) (inodeId' : InodeId) :
    (book.insertEntry entry).entries.lookup inodeId' =
      if inodeId' = entry.inodeId then some entry else book.entries.lookup inodeId' :=
  lookup_insert_eq _ _ _ _

theorem lookup_insertCreate (book : SessionBook) (opening : CreateOpeningSession)
    (operationId : CreateFileOperationId) :
    (book.insertCreate opening).createOpenings.lookup operationId =
      if operationId = opening.operationId then some opening
      else book.createOpenings.lookup operationId :=
  lookup_insert_eq _ _ _ _

theorem Coherent.put (h : book.Coherent) (hinode : entry.inodeId = inodeId)
    (hchain : entry.ancestorInodeIds.Nodup)
    (hopening : ∀ opening, entry = .opening opening → opening.openingId < book.nextOpeningId)
    (hsession : ∀ session, entry = .active session → session.Coherent book.nextPublicationId)
    (hcreate : ∀ operationId opening, book.createOpenings.lookup operationId = some opening →
        entry.createOperation ≠ some operationId) : (book.putEntry inodeId entry).Coherent := by
  have hcases : ∀ {inodeId' found},
      (book.putEntry inodeId entry).entries.lookup inodeId' = some found →
        inodeId' = inodeId ∧ found = entry ∨ book.entries.lookup inodeId' = some found := by
    intro inodeId' found hfound
    rw [lookup_putEntry] at hfound
    split at hfound
    next heq => exact .inl ⟨heq, (Option.some.inj hfound).symm⟩
    next => exact .inr hfound
  constructor
  · intro inodeId' found hfound
    rcases hcases hfound with ⟨rfl, rfl⟩ | hold
    · exact hinode
    · exact h.inode hold
  · intro inodeId' found hfound
    rcases hcases hfound with ⟨rfl, rfl⟩ | hold
    · exact hchain
    · exact h.chain hold
  · intro inodeId' opening hfound
    rcases hcases hfound with ⟨rfl, heq⟩ | hold
    · exact hopening opening heq.symm
    · exact h.opening hold
  · intro inodeId' session hfound
    rcases hcases hfound with ⟨rfl, heq⟩ | hold
    · exact hsession session heq.symm
    · exact h.session hold
  · exact h.createOperation
  · exact h.createChain
  · exact h.createOpening
  · intro operationId opening inodeId' found hopening' hfound
    rcases hcases hfound with ⟨rfl, rfl⟩ | hold
    · exact hcreate operationId opening hopening'
    · exact h.exclusive hopening' hold

theorem Coherent.putSession (h : book.Coherent) {session session' : WriteSession}
    (hfound : book.entries.lookup inodeId = some (.active session))
    (hinode : session'.inodeId = session.inodeId)
    (hchain : session'.ancestorInodeIds = session.ancestorInodeIds)
    (hcreate : session'.createOperation = session.createOperation)
    (hcoherent : session'.Coherent book.nextPublicationId) :
    (book.putEntry inodeId (.active session')).Coherent := by
  apply h.put
  · exact hinode.trans (h.inode hfound)
  · change session'.ancestorInodeIds.Nodup
    rw [hchain]
    exact h.chain hfound
  · exact nofun
  · intro found heq
    cases heq
    exact hcoherent
  · intro operationId opening hopening
    change session'.createOperation ≠ some operationId
    rw [hcreate]
    exact h.exclusive hopening hfound

variable {opening : CreateOpeningSession}

theorem Coherent.insertCreate (h : book.Coherent) (hchain : opening.parentAncestorInodeIds.Nodup)
    (hopening : opening.openingId < book.nextOpeningId)
    (hidle : ∀ inodeId entry, book.entries.lookup inodeId = some entry → entry.createOperation ≠
      some opening.operationId) : (book.insertCreate opening).Coherent := by
  have hcases : ∀ {operationId found},
      (book.insertCreate opening).createOpenings.lookup operationId = some found →
        operationId = opening.operationId ∧ found = opening ∨
          book.createOpenings.lookup operationId = some found := by
    intro operationId found hfound
    rw [lookup_insertCreate] at hfound
    split at hfound
    next heq => exact .inl ⟨heq, (Option.some.inj hfound).symm⟩
    next => exact .inr hfound
  constructor
  · exact h.inode
  · exact h.chain
  · exact h.opening
  · exact h.session
  · intro operationId found hfound
    rcases hcases hfound with ⟨rfl, rfl⟩ | hold
    · rfl
    · exact h.createOperation hold
  · intro operationId found hfound
    rcases hcases hfound with ⟨rfl, rfl⟩ | hold
    · exact hchain
    · exact h.createChain hold
  · intro operationId found hfound
    rcases hcases hfound with ⟨rfl, rfl⟩ | hold
    · exact hopening
    · exact h.createOpening hold
  · intro operationId found inodeId entry hfound hentry
    rcases hcases hfound with ⟨rfl, rfl⟩ | hold
    · exact hidle inodeId entry hentry
    · exact h.exclusive hold hentry

theorem Coherent.next (h : book.Coherent) {nextOpeningId nextPublicationId : ℕ}
    (hopening : book.nextOpeningId ≤ nextOpeningId)
    (hpublication : book.nextPublicationId ≤ nextPublicationId) :
    Coherent { book with
      nextOpeningId := nextOpeningId
      nextPublicationId := nextPublicationId } :=
  { h with
    opening hfound := (h.opening hfound).trans_le hopening
    session hfound :=
      { h.session hfound with
        publication := fun publicationId hactive =>
          ((h.session hfound).publication publicationId hactive).trans_le hpublication }
    createOpening hfound := (h.createOpening hfound).trans_le hopening }

theorem Within.put (h : book.Within registry) {entry' : WriteSessionEntry}
    (hfound : book.entries.lookup inodeId = some entry)
    (hclient : entry'.clientId = entry.clientId)
    (htargets : book.targetLoad + entry'.ownedTargets ≤
      registry.maxWriteTargets + entry.ownedTargets)
    (hsession : entry'.ownedTargets ≤ registry.maxWriteTargetsPerSession) :
    (book.putEntry inodeId entry').Within registry where
  sessions := by
    have hlen := len_replace entry' hfound
    have hsessions := h.sessions
    change len (book.entries.insert inodeId entry') + book.createOpenings.len ≤ _
    omega
  perClient c := by
    have hload := total_replace (fun entry => if entry.clientId = c then 1 else 0) entry' hfound
    simp only [hclient] at hload
    have hold := h.perClient c
    simp only [clientLoad, putEntry] at hold ⊢
    omega
  targets := by
    have hload := total_replace WriteSessionEntry.ownedTargets entry' hfound
    simp only [targetLoad, putEntry] at htargets ⊢
    omega
  perSession hlookup := by
    rw [lookup_putEntry] at hlookup
    split at hlookup
    next =>
      cases hlookup
      exact hsession
    next => exact h.perSession hlookup

theorem Within.insertEntry (h : book.Within registry)
    (hnew : book.entries.lookup entry.inodeId = none)
    (hadmitted : book.Admits registry entry.clientId) (htargets : entry.ownedTargets = 0) :
    (book.insertEntry entry).Within registry where
  sessions := by
    have hlen := len_insert entry hnew
    have hroom := hadmitted.sessions
    change len (book.entries.insert entry.inodeId entry) + book.createOpenings.len ≤ _
    omega
  perClient c := by
    rw [clientLoad_insertEntry hnew]
    by_cases hc : entry.clientId = c
    · rw [if_pos hc, ← hc]
      exact hadmitted.perClient
    · rw [if_neg hc]
      exact h.perClient c
  targets := by
    rw [targetLoad_insertEntry hnew, htargets]
    exact h.targets
  perSession hlookup := by
    rw [lookup_insertEntry] at hlookup
    split at hlookup
    next =>
      cases hlookup
      rw [htargets]
      exact Nat.zero_le _
    next => exact h.perSession hlookup

theorem Within.insertCreate (h : book.Within registry)
    (hnew : book.createOpenings.lookup opening.operationId = none)
    (hadmitted : book.Admits registry opening.openClientId) :
    (book.insertCreate opening).Within registry where
  sessions := by
    have hlen := len_insert opening hnew
    have hroom := hadmitted.sessions
    change book.entries.len + len (book.createOpenings.insert opening.operationId opening) ≤ _
    omega
  perClient c := by
    rw [clientLoad_insertCreate hnew]
    by_cases hc : opening.openClientId = c
    · rw [if_pos hc, ← hc]
      exact hadmitted.perClient
    · rw [if_neg hc]
      exact h.perClient c
  targets := h.targets
  perSession := h.perSession

theorem Within.admits_eraseCreate (h : book.Within registry) {operationId : CreateFileOperationId}
    (hfound : book.createOpenings.lookup operationId = some opening) :
    (book.eraseCreate operationId).Admits registry opening.openClientId where
  sessions := by
    have hlen := len_erase hfound
    have hsessions := h.sessions
    change book.entries.len + len (book.createOpenings.erase operationId) < _
    omega
  perClient := by
    have hload := clientLoad_eraseCreate hfound opening.openClientId
    rw [if_pos rfl] at hload
    have hclient := h.perClient opening.openClientId
    omega

end SessionBook

/-! ## One effect -/

namespace SessionEffect

variable {registry : SessionRegistry} {call : RegistryCall} {book book' : SessionBook}

theorem coherent (h : SessionEffect registry call book book') (hbook : book.Coherent) :
    book'.Coherent := by
  cases h with
  | idle => exact hbook
  | opened hchain =>
    apply (hbook.next (Nat.le_succ _) (le_refl _)).put rfl
    · exact nodup_of_validateAncestorChain hchain
    · intro opening heq
      cases heq
      exact Nat.lt_succ_self _
    · exact nofun
    · exact nofun
  | reservedCreate hchain hnew hidle =>
    apply (hbook.next (Nat.le_succ _) (le_refl _)).insertCreate
    · exact nodup_of_validateParentAncestorChain hchain
    · exact Nat.lt_succ_self _
    · exact hidle
  | activated hopening =>
    have hinode := hbook.inode hopening
    have hnodup := hbook.chain hopening
    apply hbook.put
    · exact hinode
    · exact hnodup
    · exact nofun
    · intro session heq
      cases heq
      exact ⟨fun _ => rfl, nofun, nofun, nofun⟩
    · exact nofun
  | created hopening howner hlive hnew hchain =>
    apply (hbook.eraseCreate _).put rfl
    · exact nodup_of_validateAncestorChain hchain
    · exact nofun
    · intro session heq
      cases heq
      exact ⟨fun _ => rfl, nofun, nofun, nofun⟩
    · intro operationId found hfound heq
      have hsame := Option.some.inj heq
      rw [← hsame] at hfound
      change (book.createOpenings.erase _).lookup _ = _ at hfound
      rw [lookup_erase_eq, if_pos rfl] at hfound
      cases hfound
  | createExpired | cancelledCreate => exact hbook.eraseCreate _
  | cancelledOpening | committed | removed => exact hbook.eraseEntry _
  | reserved hsession hepoch hstep hpublication =>
    have hold := hbook.session hsession
    refine hbook.putSession hsession rfl rfl rfl
      ⟨fun _ => hpublication, hold.submitted, ?_, hold.publication⟩
    intro pending heq
    cases heq
    exact hstep
  | issued hsession | refusedTarget hsession | releasedTarget hsession =>
    have hold := hbook.session hsession
    exact hbook.putSession hsession rfl rfl rfl
      ⟨fun hne => absurd rfl hne, hold.submitted, nofun, hold.publication⟩
  | publishing hsession hepoch hpending =>
    refine (hbook.next (le_refl _) (Nat.le_succ _)).putSession hsession rfl rfl rfl
      ⟨fun hne => absurd hpending hne, fun _ => nofun, ?_, ?_⟩
    · intro pending heq
      rw [hpending] at heq
      cases heq
    · intro publicationId heq
      cases heq
      exact Nat.lt_succ_self _
  | submitted hsession hepoch hpublication =>
    have hold := hbook.session hsession
    refine hbook.putSession hsession rfl rfl rfl
      ⟨hold.idle, fun _ hnone => ?_, hold.step, hold.publication⟩
    rw [hpublication] at hnone
    cases hnone
  | syncReplayed hsession =>
    have hold := hbook.session hsession
    exact hbook.putSession hsession rfl rfl rfl ⟨fun _ => rfl, nofun, hold.step, nofun⟩
  | synced hsession hepoch hpublication =>
    have hold := hbook.session hsession
    refine hbook.putSession hsession rfl rfl rfl ⟨fun _ => rfl, nofun, ?_, nofun⟩
    intro pending heq
    have hidle := hold.idle (Option.ne_none_iff_exists'.2 ⟨pending, heq⟩)
    rw [hpublication] at hidle
    cases hidle
  | unpublished hsession hepoch hpublication howner hunpinned =>
    have hold := hbook.session hsession
    refine hbook.putSession hsession rfl rfl rfl
      ⟨fun _ => rfl, fun hsubmitted => ?_, hold.step, nofun⟩
    rw [hunpinned] at hsubmitted
    cases hsubmitted
  | renewed hsession =>
    have hold := hbook.session hsession
    exact hbook.putSession hsession rfl rfl rfl
      ⟨hold.idle, hold.submitted, hold.step, hold.publication⟩

theorem within (h : SessionEffect registry call book book') (hbook : book.Within registry) :
    book'.Within registry := by
  have hshrink : ∀ {inodeId session session'},
      book.entries.lookup inodeId = some (.active session) →
      session'.openClientId = session.openClientId →
      session'.ownedTargets ≤ session.ownedTargets →
      (book.putEntry inodeId (.active session')).Within registry := by
    intro inodeId session session' hfound hclient hle
    have hsession := hbook.perSession hfound
    have htargets := hbook.targets
    refine hbook.put hfound ?_ ?_ ?_
    · exact hclient
    · change book.targetLoad + session'.ownedTargets ≤ _ + session.ownedTargets
      omega
    · exact hle.trans hsession
  cases h with
  | idle => exact hbook
  | opened hchain hnew hadmitted =>
    apply SessionBook.Within.insertEntry
    · exact ⟨hbook.sessions, hbook.perClient, hbook.targets, hbook.perSession⟩
    · exact hnew
    · exact ⟨hadmitted.sessions, hadmitted.perClient⟩
    · rfl
  | reservedCreate hchain hnew hidle hadmitted =>
    apply SessionBook.Within.insertCreate
    · exact ⟨hbook.sessions, hbook.perClient, hbook.targets, hbook.perSession⟩
    · exact hnew
    · exact ⟨hadmitted.sessions, hadmitted.perClient⟩
  | @activated _ _ _ tail _ _ _ hopening howner hlive hepoch hfile htail =>
    have htargets := hbook.targets
    have hpos := registry.maxWriteTargetsPerSession_pos
    refine hbook.put hopening rfl ?_ ?_
    · cases tail with
      | none => exact htargets
      | some => exact htail rfl
    · cases tail with
      | none => exact Nat.zero_le _
      | some => exact hpos
  | created hopening howner hlive hnew =>
    exact (hbook.eraseCreate hopening).insertEntry hnew (hbook.admits_eraseCreate hopening) rfl
  | createExpired hopening | cancelledCreate hopening => exact hbook.eraseCreate hopening
  | cancelledOpening hopening => exact hbook.eraseEntry hopening
  | @reserved _ _ _ _ _ session _ hsession hepoch hstep hpublication hprevious hpending
      hoffset hroom htotal =>
      have howned : session.ownedTargets = session.issuedTargets.length := by
        simp [ownedTargets, hpending]
      refine hbook.put hsession rfl ?_ ?_
      · change book.targetLoad + (session.issuedTargets.length + 1) ≤
          _ + session.ownedTargets
        omega
      · exact hroom
  | @issued _ _ _ _ session hsession hepoch hpending =>
    refine hshrink hsession rfl ?_
    simp [ownedTargets, WriteSession.issued, hpending]
  | @refusedTarget _ _ _ _ session hsession =>
    refine hshrink hsession rfl ?_
    simp [ownedTargets]
  | @releasedTarget _ _ session hsession =>
    refine hshrink hsession rfl ?_
    simp [ownedTargets]
  | publishing hsession =>
    have howned := hbook.perSession hsession
    apply SessionBook.Within.put
    · exact ⟨hbook.sessions, hbook.perClient, hbook.targets, hbook.perSession⟩
    · exact hsession
    · rfl
    · exact Nat.add_le_add_right hbook.targets _
    · exact howned
  | submitted hsession | syncReplayed hsession | unpublished hsession | renewed hsession =>
    exact hshrink hsession rfl (le_refl _)
  | synced hsession =>
    refine hshrink hsession rfl ?_
    apply Nat.add_le_add_right
    exact List.length_take_le' _ _
  | committed hsession | removed hsession => exact hbook.eraseEntry hsession

end SessionEffect

end Beryl
