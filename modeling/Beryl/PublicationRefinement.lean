import Beryl.SessionRefinement

/-!
# Publications, cancellation and queries refine the effects

A submitted publication moves its session to the end of the expiry indexes; its
completion moves it back.  The owner of a publication knows whether it was submitted,
and what it knows agrees with the session it owns.
-/

namespace Beryl

open Transaction Registry SessionReached SessionRefused

namespace SessionRegistryState.Sound

variable {E : Type} {registry : SessionRegistry} {state : SessionRegistryState}

/-! ## Publications -/

theorem beginPublication_settles (h : state.Sound registry) (inodeId : InodeId)
    (leaseEpoch : LeaseEpoch) (nowMs : ℕ) :
    Settles registry (.beginPublication inodeId leaseEpoch nowMs) state.book
      (beginPublication inodeId leaseEpoch nowMs) state
      (fun owner book => owner.session.inodeId = inodeId ∧ owner.submitted = false ∧
        owner.publicationId = state.nextPublicationId ∧
        book.nextPublicationId = state.nextPublicationId + 1 ∧
        book.entries.lookup owner.session.inodeId = some (.active owner.session) ∧
        owner.session.publicationSubmitted = false) := by
  unfold beginPublication
  apply settles_retireFor h rfl
  intro mid hmid hswept hstay
  apply settles_current
  apply settles_tryWith hstay
  intro session hactive
  have hsession := activeSession_eq_ok.1 hactive
  apply settles_refuseIf hstay
  intro hepoch
  apply settles_refuseIf hstay
  intro hpending
  apply settles_refuseIf hstay
  intro hpublication
  have hpublication := not_not.1 hpublication
  apply settles_okOr hstay
  intro next hnext
  obtain ⟨rfl, -⟩ := checkedAddU64_eq_some hnext
  let session' : WriteSession := { session with
    activePublication := some mid.nextPublicationId }
  let publishing : SessionRegistryState := { mid with
    nextPublicationId := mid.nextPublicationId + 1
    entries := mid.entries.insert inodeId (.active session') }
  have hindexed : publishing.Indexed := by
    apply (hmid.indexed.next mid.nextOpeningId (mid.nextPublicationId + 1)).replaceEntry hsession
    · rfl
    · rfl
    · exact hmid.indexed.expiries.keep hsession rfl
    · exact hmid.indexed.ancestors_keep hsession rfl rfl
    · rfl
    · rfl
    · rfl
  let advanced : SessionRegistryState := { mid with
    nextPublicationId := mid.nextPublicationId + 1 }
  have hexpect : (expectActive inodeId mustRemainCurrent :
      Registry BeginWritePublicationError WriteSession) advanced = (.ok session, advanced) :=
    expectActive_run hsession
  apply settles_update
  apply settles_run hexpect
  apply settles_assertThat hpublication
  unfold putSession
  apply settles_update
  apply settles_pure
  · apply SessionReached.of_effect rfl hmid hswept _ hindexed
    exact .publishing hsession (not_not.1 hepoch) (not_not.1 hpending) hpublication
  · have hunpinned : session.publicationSubmitted = false := by
      cases hpinned : session.publicationSubmitted with
      | false => rfl
      | true => exact absurd hpublication ((hmid.coherent.session hsession).submitted hpinned)
    have hid : session.inodeId = inodeId := hmid.coherent.inode hsession
    refine ⟨hid, rfl, hswept.nextPublicationId, congrArg (· + 1) hswept.nextPublicationId, ?_,
      hunpinned⟩
    exact (HashMap.lookup_insert_eq _ _ _ _).trans (if_pos hid)

theorem ownedSession_ensures (inodeId : InodeId) (leaseEpoch : LeaseEpoch)
    (publicationId : WritePublicationId) :
    Ensures (ownedSession inodeId leaseEpoch publicationId) state
      (fun session state' => state' = state ∧
        state.entries.lookup inodeId = some (.active session) ∧
        session.leaseEpoch = leaseEpoch ∧ session.activePublication = some publicationId)
      (fun exit state' => (∃ error, exit = .refused error) ∧ state' = state) := by
  unfold ownedSession
  refine ensures_bind_of_ok rfl ?_
  cases hactive : activeSession state inodeId with
  | error => exact ⟨⟨_, rfl⟩, rfl⟩
  | ok =>
    refine ensures_bind_of_ok rfl ?_
    refine failIf_bind (fun _ => ⟨⟨_, rfl⟩, rfl⟩) fun hepoch => ?_
    refine failIf_bind (fun _ => ⟨⟨_, rfl⟩, rfl⟩) fun hpublication => ?_
    exact ensures_pure ⟨rfl, activeSession_eq_ok.1 hactive, not_not.1 hepoch,
      not_not.1 hpublication⟩

variable {inodeId : InodeId} {leaseEpoch : LeaseEpoch} {session : WriteSession}
  {call : RegistryCall}

theorem settles_ownedSession {α : Type} {start : SessionBook}
    {post : α → SessionBook → Prop} {publicationId : WritePublicationId}
    {f : WriteSession → Registry String α} (hstay : SessionRefused registry call start state)
    (h : ∀ session, state.entries.lookup inodeId = some (.active session) →
      session.leaseEpoch = leaseEpoch → session.activePublication = some publicationId →
      Settles registry call start (f session) state post) :
    Settles registry call start (ownedSession inodeId leaseEpoch publicationId >>= f) state
      post := by
  refine Ensures.bind (ownedSession_ensures inodeId leaseEpoch publicationId) ?_ ?_
  · rintro exit state' ⟨hrefused, rfl⟩
    exact ⟨hrefused, hstay⟩
  · rintro session state' ⟨rfl, hsession, hepoch, hpublication⟩
    exact h session hsession hepoch hpublication

section

variable (h : state.Sound registry)
include h

theorem revalidatePublication_settles (owner : WritePublication)
    (nowMs : ℕ) : Settles registry (.revalidate owner nowMs) state.book
      (revalidatePublication owner.session.inodeId owner.session.leaseEpoch
        owner.publicationId nowMs) state (fun _ _ => True) := by
  unfold revalidatePublication
  apply settles_retireFor h rfl
  intro mid _ _ hstay
  apply Ensures.mono (ownedSession_ensures _ _ _)
  · rintro session state' ⟨rfl, -⟩
    exact ⟨hstay.reached, trivial⟩
  · rintro exit state' ⟨hrefused, rfl⟩
    exact ⟨hrefused, hstay⟩

/-- An active session is replaced by one with another retirement time; its expiry
indexes are moved. -/
theorem moveSession (session' : WriteSession) (outstanding : ℕ)
    (hsession : state.entries.lookup inodeId = some (.active session))
    (hclient : session'.openClientId = session.openClientId)
    (hpath : session'.ancestorInodeIds = session.ancestorInodeIds)
    (hcreate : session'.createOperation = session.createOperation)
    (houtstanding : outstanding + session.ownedTargets = state.outstandingWriteTargets +
      session'.ownedTargets) (hpending : session'.pendingTargets = session.pendingTargets) :
    ∃ activity, moveAncestors session.retirementAtMs session'.retirementAtMs
        session.ancestorInodeIds state.ancestorActivity = .ok activity ∧
      SessionRegistryState.Indexed { state with
        entries := state.entries.insert inodeId (.active session')
        entriesByExpiry := (state.entriesByExpiry.delete
          (toLex (session.retirementAtMs, inodeId))).put
          (toLex (session'.retirementAtMs, inodeId)) ()
        ancestorActivity := activity
        outstandingWriteTargets := outstanding } := by
  have hmoved : ∃ activity, moveAncestors session.retirementAtMs session'.retirementAtMs
        session.ancestorInodeIds state.ancestorActivity = .ok activity ∧
      Mirrors activity (state.book.putEntry inodeId (.active session')).ancestorLoad :=
    h.indexed.ancestors_move hsession (h.coherent.chain hsession)
      (show (WriteSessionEntry.active session').ancestorInodeIds = _ from hpath)
  obtain ⟨activity, hmove, hmirrors⟩ := hmoved
  refine ⟨activity, hmove, ?_⟩
  apply h.indexed.replaceEntry hsession
  · exact hclient
  · exact hcreate
  · have hlists : EntriesListed _ _ (state.entries.insert inodeId (.active session')) :=
      h.indexed.expiries.replace hsession
        fun _ _ _ hitem => (Prod.mk.inj (toLex_inj.1 hitem)).2
    exact hlists
  · exact hmirrors
  · rfl
  · exact houtstanding
  · exact congrArg (state.pendingWriteTargets + ·) hpending.symm

theorem keepSession (session' : WriteSession) (outstanding : ℕ)
    (hsession : state.entries.lookup inodeId = some (.active session))
    (hclient : session'.openClientId = session.openClientId)
    (hpath : session'.ancestorInodeIds = session.ancestorInodeIds)
    (hcreate : session'.createOperation = session.createOperation)
    (hretirement : session'.retirementAtMs = session.retirementAtMs)
    (houtstanding : outstanding + session.ownedTargets = state.outstandingWriteTargets +
      session'.ownedTargets) (hpending : session'.pendingTargets = session.pendingTargets) :
    SessionRegistryState.Indexed { state with
      entries := state.entries.insert inodeId (.active session')
      outstandingWriteTargets := outstanding } := by
  apply h.indexed.replaceEntry hsession
  · exact hclient
  · exact hcreate
  · exact h.indexed.expiries.keep hsession
      (congrArg (fun time => toLex (time, inodeId)) hretirement)
  · exact h.indexed.ancestors_keep hsession hpath hretirement
  · rfl
  · exact houtstanding
  · exact congrArg (state.pendingWriteTargets + ·) hpending.symm

theorem expiry_get (hsession : state.entries.lookup inodeId = some (.active session)) :
    state.entriesByExpiry.get (toLex (session.retirementAtMs, inodeId)) = some () :=
  (h.indexed.expiries _).2 ⟨inodeId, _, hsession, rfl⟩

theorem markSubmitted_settles (owner : WritePublication)
    (nowMs : ℕ)
    (howned : ∀ session, state.entries.lookup owner.session.inodeId = some (.active session) →
      session.activePublication = some owner.publicationId →
      session.publicationSubmitted = owner.submitted) :
    Settles registry (.markSubmitted owner nowMs) state.book (markSubmitted owner nowMs) state
      (fun owner' book => owner' = { owner with submitted := true } ∧
        (owner.submitted = false → ∃ session,
          book.entries.lookup owner.session.inodeId = some (.active session) ∧
          session.leaseEpoch = owner.session.leaseEpoch ∧
          session.activePublication = some owner.publicationId ∧
          session.publicationSubmitted = true) ∧
        ∀ session, book.entries.lookup owner.session.inodeId = some (.active session) →
          session.activePublication = some owner.publicationId →
          session.publicationSubmitted = true) := by
  have hstay : SessionRefused registry (.markSubmitted owner nowMs) state.book state := .here h
  unfold markSubmitted
  cases howner : owner.submitted with
  | true =>
    rw [if_pos rfl]
    refine settles_pure hstay.reached ⟨?_, nofun, ?_⟩
    · rw [← howner]
    · intro session hsession hpublication
      rw [howned session hsession hpublication, howner]
  | false =>
    rw [if_neg Bool.false_ne_true]
    apply settles_refuseIf hstay
    intro _
    apply settles_current
    apply settles_tryWith hstay
    intro session hactive
    have hsession := activeSession_eq_ok.1 hactive
    apply settles_refuseIf hstay
    intro hchanged
    have hepoch : session.leaseEpoch = owner.session.leaseEpoch :=
      not_not.1 fun hne => hchanged (.inl hne)
    have hpublication : session.activePublication = some owner.publicationId :=
      not_not.1 fun hne => hchanged (.inr (.inl hne))
    have hlive : nowMs < session.expiresAtMs := not_le.1 fun hle => hchanged (.inr (.inr hle))
    have hunpinned : session.publicationSubmitted = false :=
      (howned session hsession hpublication).trans howner
    have hretirement := session.retirementAtMs_unpinned hunpinned
    obtain ⟨activity, hmove, hindexed⟩ :=
      h.moveSession { session with publicationSubmitted := true }
        state.outstandingWriteTargets hsession rfl rfl rfl rfl rfl
    have hget := h.expiry_get hsession
    rw [hretirement] at hmove hindexed hget
    unfold putSession
    apply settles_update
    apply settles_run (moveExpiryIndexes_run (by exact hget) (by exact hmove))
    apply settles_pure
    · apply SessionReached.of_effect' h _ hindexed
      exact .submitted hsession hepoch hpublication hlive howner hunpinned
    · have hlookup := SessionBook.lookup_putEntry state.book owner.session.inodeId
        owner.session.inodeId (.active { session with publicationSubmitted := true })
      rw [if_pos rfl] at hlookup
      refine ⟨rfl, fun _ => ⟨_, hlookup, hepoch, hpublication, rfl⟩, ?_⟩
      intro found hfound _
      cases hlookup.symm.trans hfound
      rfl

theorem releaseSyncPublication_run (session' : WriteSession)
    (outstanding : ℕ) (hsession : state.entries.lookup inodeId = some (.active session))
    (hclient : session'.openClientId = session.openClientId)
    (hpath : session'.ancestorInodeIds = session.ancestorInodeIds)
    (hcreate : session'.createOperation = session.createOperation)
    (hexpires : session'.expiresAtMs = session.expiresAtMs)
    (hsubmitted : session'.publicationSubmitted = session.publicationSubmitted)
    (houtstanding : outstanding + session.ownedTargets = state.outstandingWriteTargets +
      session'.ownedTargets) (hpending : session'.pendingTargets = session.pendingTargets) :
    ∃ state', (releaseSyncPublication inodeId : Registry E Unit) { state with
          entries := state.entries.insert inodeId (.active session')
          outstandingWriteTargets := outstanding } = (.ok (), state') ∧
      state'.Indexed ∧
      state'.book = state.book.putEntry inodeId (.active { session' with
        activePublication := none
        publicationSubmitted := false }) := by
  let written : SessionRegistryState := { state with
    entries := state.entries.insert inodeId (.active session')
    outstandingWriteTargets := outstanding }
  let released : WriteSession := { session' with
    activePublication := none
    publicationSubmitted := false }
  let put : SessionRegistryState := { state with
    entries := state.entries.insert inodeId (.active released)
    outstandingWriteTargets := outstanding }
  have hput : (putSession inodeId released : Registry E Unit) written = (.ok (), put) :=
    congrArg (fun entries => (Except.ok (), { put with entries := entries }))
      (Finmap.insert_insert _)
  have hlookup : written.entries.lookup inodeId = some (.active session') :=
    (HashMap.lookup_insert_eq _ _ _ _).trans (if_pos rfl)
  have hactive : (expectActive inodeId "publication owns the session" :
      Registry E WriteSession) written = (.ok session', written) := expectActive_run hlookup
  have hretirement : released.retirementAtMs = session.expiresAtMs := hexpires
  unfold releaseSyncPublication
  rw [bind_of_ok hactive]
  cases hpinned : session.publicationSubmitted with
  | true =>
    have hold := session.retirementAtMs_pinned hpinned
    obtain ⟨activity, hmove, hindexed⟩ :=
      h.moveSession released outstanding hsession hclient hpath hcreate houtstanding hpending
    have hget := h.expiry_get hsession
    rw [hold, hretirement] at hmove hindexed
    rw [hold] at hget
    let moved : SessionRegistryState := { put with
      entriesByExpiry := (put.entriesByExpiry.delete (toLex (u64Max, inodeId))).put
        (toLex (session.expiresAtMs, inodeId)) ()
      ancestorActivity := activity }
    have hmoved : (moveExpiryIndexes inodeId session'.ancestorInodeIds u64Max
        session'.expiresAtMs : Registry E Unit) put = (.ok (), moved) := by
      rw [hpath, hexpires]
      exact moveExpiryIndexes_run hget hmove
    rw [hsubmitted, hpinned, if_pos rfl, bind_of_ok hput, hmoved]
    exact ⟨_, rfl, hindexed, rfl⟩
  | false =>
    have hold := session.retirementAtMs_unpinned hpinned
    have hindexed := h.keepSession released outstanding hsession hclient hpath hcreate
      (hretirement.trans hold.symm) houtstanding hpending
    rw [hsubmitted, hpinned, if_neg Bool.false_ne_true, hput]
    exact ⟨_, rfl, hindexed, rfl⟩

theorem completeSyncPublication_settles (owner : WritePublication)
    (generation : ContentGeneration) (fileSize nowMs : ℕ) :
    Settles registry (.completeSync owner generation fileSize nowMs) state.book
      (completeSyncPublication owner.session.inodeId owner.session.leaseEpoch
        owner.publicationId generation fileSize nowMs) state (fun _ _ => True) := by
  unfold completeSyncPublication
  apply settles_retireFor h rfl
  intro mid hmid hswept hstay
  apply settles_ownedSession hstay
  intro session hsession hepoch hpublication
  by_cases hgeneration : session.generation = generation
  · rw [if_pos hgeneration]
    apply settles_refuseIf hstay
    intro hsize
    obtain ⟨state', hrelease, hindexed, hbook⟩ :=
      hmid.releaseSyncPublication_run (E := String) { session with mode := .append }
        mid.outstandingWriteTargets hsession rfl rfl rfl rfl rfl rfl rfl
    apply settles_update
    have heffect : SessionEffect registry (.completeSync owner generation fileSize nowMs)
        mid.book (mid.book.putEntry owner.session.inodeId (.active { session with
          mode := .append
          activePublication := none
          publicationSubmitted := false })) :=
      .syncReplayed hsession hepoch hpublication hgeneration (not_not.1 hsize)
    refine settles_done hrelease ?_ trivial
    apply SessionReached.of_effect rfl hmid hswept _ hindexed
    rw [hbook]
    exact heffect
  · rw [if_neg hgeneration]
    unfold installSync
    apply settles_okOr hstay
    intro expected hexpected
    apply settles_refuseIf hstay
    intro hsame
    have hnext : checkedNext session.generation = some generation :=
      hexpected.trans (congrArg some (not_not.1 hsame).symm)
    have hretained : retainedTargetCount session.issuedTargets fileSize ≤
        session.issuedTargets.length :=
      (session.issuedTargets.takeWhile_sublist _).length_le
    have howned : session.ownedTargets ≤ mid.outstandingWriteTargets := by
      rw [hmid.indexed.outstanding]
      have hle : WriteSessionEntry.ownedTargets (.active session) ≤ mid.book.targetLoad :=
        HashMap.le_total hsession
      exact hle
    have hissued : session.issuedTargets.length ≤ session.ownedTargets := Nat.le_add_right _ _
    let synced := session.synced generation fileSize
      (retainedTargetCount session.issuedTargets fileSize)
    let written : SessionRegistryState := { mid with
      entries := mid.entries.insert owner.session.inodeId (.active synced) }
    have hcount : session.issuedTargets.length -
        retainedTargetCount session.issuedTargets fileSize ≤ written.outstandingWriteTargets :=
      (Nat.sub_le _ _).trans (hissued.trans howned)
    apply settles_update
    apply settles_run (releaseOutstanding_run hcount)
    obtain ⟨state', hrelease, hindexed, hbook⟩ :=
      hmid.releaseSyncPublication_run (E := String) synced
        (mid.outstandingWriteTargets - (session.issuedTargets.length -
          retainedTargetCount session.issuedTargets fileSize))
        hsession rfl rfl rfl rfl rfl (by
          have hlength : synced.issuedTargets.length =
              retainedTargetCount session.issuedTargets fileSize := by
            change (session.issuedTargets.take _).length = _
            rw [List.length_take, min_eq_left hretained]
          change _ + (session.issuedTargets.length + session.pendingTargets) =
            _ + (synced.issuedTargets.length + session.pendingTargets)
          have hparts : session.ownedTargets =
            session.issuedTargets.length + session.pendingTargets := rfl
          omega) rfl
    apply settles_run hrelease
    refine settles_done hindexed.targetGauges ?_ trivial
    apply SessionReached.of_effect rfl hmid hswept _ hindexed
    rw [hbook]
    exact .synced hsession hepoch hpublication hnext

end

theorem publicationMatches_iff {publicationId : WritePublicationId} :
    publicationMatches state inodeId leaseEpoch publicationId = true ↔
      ∃ session, state.entries.lookup inodeId = some (.active session) ∧
        session.leaseEpoch = leaseEpoch ∧ session.activePublication = some publicationId := by
  unfold publicationMatches
  split
  next session hsession => simp [hsession]
  next hnone =>
    refine iff_of_false Bool.false_ne_true ?_
    rintro ⟨session, hsession, -⟩
    exact hnone session hsession

/-- A method that takes one owner's record out of the state and returns. -/
theorem settles_removed {α β : Type} {x : Registry E β} {found : β}
    {f : β → Registry E α} {value : α} {book' : SessionBook} (h : state.Sound registry)
    (hrun : ∃ state', x state = (.ok found, state') ∧ state'.Sound registry ∧ state'.book = book')
    (hdone : f found = pure value) (heffect : SessionEffect registry call state.book book') :
    Settles registry call state.book (x >>= f) state (fun _ _ => True) := by
  obtain ⟨state', hrun, hsound, rfl⟩ := hrun
  apply settles_run hrun
  rw [hdone]
  exact settles_pure (of_effect' h heffect hsound.indexed) trivial

theorem completeCommitPublication_settles (h : state.Sound registry) (owner : WritePublication) :
    Settles registry (.completeCommit owner) state.book
      (completeCommitPublication owner.session.inodeId owner.session.leaseEpoch
        owner.publicationId : Registry E Unit) state (fun _ _ => True) := by
  unfold completeCommitPublication
  apply settles_current
  by_cases hmatches : publicationMatches state owner.session.inodeId owner.session.leaseEpoch
      owner.publicationId = true
  · rw [if_pos hmatches]
    obtain ⟨session, hsession, hepoch, hpublication⟩ := publicationMatches_iff.1 hmatches
    exact settles_removed h (h.removeEntry_run hsession) rfl
      (.committed hsession hepoch hpublication)
  · rw [if_neg hmatches]
    exact settles_pure (SessionRefused.here h).reached trivial

theorem dropPublication_settles (h : state.Sound registry) (owner : WritePublication)
    (hunsubmitted : owner.submitted = false) (howned : ∀ session,
      state.entries.lookup owner.session.inodeId = some (.active session) →
      session.activePublication = some owner.publicationId →
      session.publicationSubmitted = owner.submitted) :
    Settles registry (.dropPublication owner) state.book
      (cancelPublication owner.session.inodeId owner.session.leaseEpoch
        owner.publicationId : Registry E Unit) state (fun _ _ => True) := by
  unfold cancelPublication
  refine settles_done rfl ?_ trivial
  beta_reduce
  split
  next session hsession =>
    split
    next hmatches =>
      have hunpinned : session.publicationSubmitted = false :=
        (howned session hsession hmatches.2).trans hunsubmitted
      apply SessionReached.of_effect' h
      · exact .unpublished hsession hmatches.1 hmatches.2 hunsubmitted hunpinned
      · exact h.keepSession { session with activePublication := none }
          state.outstandingWriteTargets hsession rfl rfl rfl rfl rfl rfl
    next => exact (SessionRefused.here h).reached
  next => exact (SessionRefused.here h).reached

/-! ## Cancelling -/

theorem cancelOpening_settles (h : state.Sound registry) (owner : WriteOpening) :
    Settles registry (.dropOpening owner) state.book
      (cancelOpening owner.inodeId owner.openingId : Registry E Unit) state (fun _ _ => True) := by
  unfold cancelOpening
  apply settles_current
  cases hexact : exactOpening state owner.inodeId owner.openingId with
  | none => exact settles_pure (SessionRefused.here h).reached trivial
  | some =>
    obtain ⟨hopening, hid⟩ := exactOpening_eq_some.1 hexact
    exact settles_removed h (h.removeEntry_run hopening) rfl (.cancelledOpening hopening hid)

theorem cancelCreateOpening_settles (h : state.Sound registry) (owner : CreateOpening) :
    Settles registry (.dropCreateOpening owner) state.book
      (cancelCreateOpening owner.operationId owner.openingId : Registry E Unit) state
      (fun _ _ => True) := by
  unfold cancelCreateOpening
  apply settles_current
  cases hexact : exactCreateOpening state owner.operationId owner.openingId with
  | none => exact settles_pure (SessionRefused.here h).reached trivial
  | some =>
    obtain ⟨hopening, hid⟩ := exactCreateOpening_eq_some.1 hexact
    exact settles_removed h (h.removeCreateOpening_run hopening) rfl (.cancelledCreate hopening hid)

theorem removeSessionIfEpoch_settles (h : state.Sound registry) (inodeId : InodeId)
    (leaseEpoch : LeaseEpoch) :
    Settles registry (.removeSessionIfEpoch inodeId leaseEpoch) state.book
      (removeSessionIfEpoch inodeId leaseEpoch : Registry E _) state (fun _ _ => True) := by
  unfold removeSessionIfEpoch
  apply settles_current
  split
  next session hsession =>
    by_cases hepoch : session.leaseEpoch = leaseEpoch
    · rw [if_pos hepoch]
      exact settles_removed h (h.removeEntry_run hsession) rfl (.removed hsession hepoch)
    · rw [if_neg hepoch]
      exact settles_pure (SessionRefused.here h).reached trivial
  next => exact settles_pure (SessionRefused.here h).reached trivial

/-! ## Queries and renewal -/

section

variable (h : state.Sound registry)
include h

theorem getSession_settles (inodeId : InodeId) (nowMs : ℕ) :
    Settles registry (.getSession inodeId nowMs) state.book
      (getSession inodeId nowMs : Registry E _) state (fun _ _ => True) := by
  unfold getSession
  apply settles_retireFor h rfl
  intro mid _ _ hstay
  apply settles_current
  split
  · exact settles_pure hstay.reached trivial
  · exact settles_pure hstay.reached trivial

theorem unexpiredSession_ensures (inodeId : InodeId) (leaseEpoch : LeaseEpoch) (nowMs : ℕ) :
    Ensures (unexpiredSession inodeId leaseEpoch nowMs) state
      (fun session mid => mid.Sound registry ∧ SessionBook.Swept nowMs state.book mid.book ∧
        mid.entries.lookup inodeId = some (.active session) ∧
        session.leaseEpoch = leaseEpoch ∧ nowMs < session.expiresAtMs)
      (fun exit mid => (∃ error, exit = .refused error) ∧ mid.Sound registry ∧
        SessionBook.Swept nowMs state.book mid.book) := by
  unfold unexpiredSession
  refine ensures_bind_of_ok rfl ?_
  split
  next hexpired =>
    obtain ⟨_, mid, hrun, hmid, hswept, -⟩ :=
      h.retireExpiredEntryForInode_run (E := WriteSessionError) inodeId nowMs
    exact ensures_bind_of_ok hrun ⟨⟨_, rfl⟩, hmid, hswept⟩
  next hlive =>
    obtain ⟨_, mid, hrun, hmid, hswept⟩ := h.retireExpiredEntries_run (E := WriteSessionError) nowMs
    refine ensures_bind_of_ok hrun (ensures_bind_of_ok rfl ?_)
    cases hactive : activeSession mid inodeId with
    | error => exact ⟨⟨_, rfl⟩, hmid, hswept⟩
    | ok session =>
      refine ensures_bind_of_ok rfl ?_
      refine failIf_bind (fun _ => ⟨⟨_, rfl⟩, hmid, hswept⟩) fun hepoch => ?_
      have hsession := activeSession_eq_ok.1 hactive
      refine ensures_pure ⟨hmid, hswept, hsession, not_not.1 hepoch, ?_⟩
      have hbefore : state.entries.lookup inodeId = some (.active session) :=
        hswept.lookup_of_some hsession
      rw [hbefore] at hlive
      exact not_le.1 fun hle => hlive (decide_eq_true hle)

theorem settles_unexpiredSession {α : Type} {post : α → SessionBook → Prop}
    {nowMs : ℕ} {f : WriteSession → Registry WriteSessionError α} (hclock : call.clock = some nowMs)
    (hnext : ∀ session mid, mid.Sound registry → SessionBook.Swept nowMs state.book mid.book →
      mid.entries.lookup inodeId = some (.active session) → session.leaseEpoch = leaseEpoch →
      nowMs < session.expiresAtMs → Settles registry call state.book (f session) mid post) :
    Settles registry call state.book (unexpiredSession inodeId leaseEpoch nowMs >>= f) state
      post := by
  refine Ensures.bind (h.unexpiredSession_ensures inodeId leaseEpoch nowMs) ?_ ?_
  · rintro exit mid ⟨hrefused, hmid, hswept⟩
    exact ⟨hrefused, .of_swept hclock hmid hswept⟩
  · rintro session mid ⟨hmid, hswept, hsession, hepoch, hlive⟩
    exact hnext session mid hmid hswept hsession hepoch hlive

theorem validateSession_settles (inodeId : InodeId) (leaseEpoch : LeaseEpoch) (nowMs : ℕ) :
    Settles registry (.validateSession inodeId leaseEpoch nowMs) state.book
      (validateSession inodeId leaseEpoch nowMs) state (fun _ _ => True) := by
  apply settles_unexpiredSession h rfl
  intro session mid hmid hswept _ _ _
  exact settles_pure (of_swept rfl hmid hswept).reached trivial

theorem renewSessionAt_settles (inodeId : InodeId)
    (leaseEpoch : LeaseEpoch) (clientId : ClientId) (nowMs : ℕ) :
    Settles registry (.renewSession inodeId leaseEpoch clientId nowMs) state.book
      (renewSessionAt registry inodeId leaseEpoch clientId nowMs) state (fun _ _ => True) := by
  apply settles_unexpiredSession h rfl
  intro session mid hmid hswept hsession hepoch hlive
  have hstay : SessionRefused registry (.renewSession inodeId leaseEpoch clientId nowMs) state.book
      mid := .of_swept rfl hmid hswept
  apply settles_refuseIf hstay
  intro hclient
  let expiresAtMs := max (saturatingAddU64 nowMs registry.sessionTtlMs) session.expiresAtMs
  let session' : WriteSession := { session with expiresAtMs := expiresAtMs }
  have heffect : SessionEffect registry (.renewSession inodeId leaseEpoch clientId nowMs)
      mid.book (mid.book.putEntry inodeId (.active session')) :=
    .renewed hsession hepoch (not_not.1 hclient) hlive
  cases hpinned : session.publicationSubmitted with
  | true =>
    have hkeep : (moveRenewed session inodeId expiresAtMs : Registry WriteSessionError Unit)
        mid = (.ok (), mid) := by
      unfold moveRenewed
      rw [hpinned, if_pos rfl]
      rfl
    have hretirement : session'.retirementAtMs = session.retirementAtMs := by
      rw [session.retirementAtMs_pinned hpinned]
      exact session'.retirementAtMs_pinned hpinned
    apply settles_run hkeep
    apply settles_run (expectActive_run hsession)
    apply settles_update
    refine settles_pure ?_ trivial
    exact of_effect rfl hmid hswept heffect
      (hmid.keepSession session' mid.outstandingWriteTargets hsession rfl rfl rfl hretirement
        rfl rfl)
  | false =>
    have hretirement := session.retirementAtMs_unpinned hpinned
    have hretirement' : session'.retirementAtMs = expiresAtMs :=
      session'.retirementAtMs_unpinned hpinned
    obtain ⟨activity, hmove, hindexed⟩ :=
      hmid.moveSession session' mid.outstandingWriteTargets hsession rfl rfl rfl rfl rfl
    have hget := hmid.expiry_get hsession
    rw [hretirement, hretirement'] at hmove hindexed
    rw [hretirement] at hget
    let moved : SessionRegistryState := { mid with
      entriesByExpiry := (mid.entriesByExpiry.delete
        (toLex (session.expiresAtMs, inodeId))).put (toLex (expiresAtMs, inodeId)) ()
      ancestorActivity := activity }
    have hmoved : (moveRenewed session inodeId expiresAtMs :
        Registry WriteSessionError Unit) mid = (.ok (), moved) := by
      unfold moveRenewed
      rw [hpinned, if_neg Bool.false_ne_true]
      exact moveExpiryIndexes_run hget hmove
    have hactive : (expectActive inodeId mustRemainCurrent :
        Registry WriteSessionError WriteSession) moved = (.ok session, moved) :=
      expectActive_run hsession
    apply settles_run hmoved
    apply settles_run hactive
    apply settles_update
    refine settles_pure ?_ trivial
    exact of_effect rfl hmid hswept heffect hindexed

theorem retireExpiredBatch_settles (nowMs : ℕ) :
    Settles registry (.retireExpiredBatch nowMs) state.book
      (retireExpiredBatch nowMs : Registry E ℕ) state (fun _ _ => True) := by
  obtain ⟨retired, mid, hrun, hmid, hswept⟩ := h.retireExpiredEntries_run (E := E) nowMs
  exact settles_done hrun (of_swept rfl hmid hswept).reached trivial

theorem hasActiveWriteUnderAt_settles (inodeId : InodeId) (nowMs : ℕ) :
    Settles registry (.hasActiveWriteUnder inodeId nowMs) state.book
      (hasActiveWriteUnderAt inodeId nowMs : Registry E Bool) state (fun _ _ => True) := by
  obtain ⟨retired, mid, hrun, hmid, hswept⟩ := h.retireExpiredEntries_run (E := E) nowMs
  unfold hasActiveWriteUnderAt
  apply settles_run hrun
  apply settles_current
  exact settles_pure (of_swept rfl hmid hswept).reached trivial

end

end SessionRegistryState.Sound

end Beryl
