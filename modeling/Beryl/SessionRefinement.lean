import Beryl.SessionEffects

/-!
# The registry methods refine the effects

`Settles call start x state post`: run from a sound state that `start` moved to, `x`
ends in a sound state that `call` may have moved `start` to, whether it answers (then
also with `post`) or refuses; it never panics.
-/

namespace Beryl

open Transaction Registry WriteSessionEntry WriteSession SessionBook RegistryOwner

theorem WriteSession.retirementAtMs_pinned (session : WriteSession)
    (h : session.publicationSubmitted = true) : session.retirementAtMs = u64Max :=
  if_pos h

theorem WriteSession.retirementAtMs_unpinned (session : WriteSession)
    (h : session.publicationSubmitted = false) : session.retirementAtMs = session.expiresAtMs :=
  if_neg (ne_true_of_eq_false h)

section Rules

variable {E α β : Type} {registry : SessionRegistry} {call : RegistryCall}
  {start : SessionBook} {state state' : SessionRegistryState}
  {post : α → SessionBook → Prop}

structure SessionReached (registry : SessionRegistry) (call : RegistryCall) (start : SessionBook)
    (state : SessionRegistryState) : Prop where
  sound : state.Sound registry
  moves : call.Moves registry start state.book

/-- The state is sound and is one that the call may leave when it refuses. -/
structure SessionRefused (registry : SessionRegistry) (call : RegistryCall)
    (start : SessionBook) (state : SessionRegistryState) : Prop where
  sound : state.Sound registry
  refuses : call.Refuses start state.book

theorem SessionRefused.reached (h : SessionRefused registry call start state) :
    SessionReached registry call start state := ⟨h.sound, h.refuses.moves⟩

def Settles (registry : SessionRegistry) (call : RegistryCall) (start : SessionBook)
    (x : Registry E α) (state : SessionRegistryState) (post : α → SessionBook → Prop) : Prop :=
  Ensures x state
    (fun value state' => SessionReached registry call start state' ∧ post value state'.book)
    (fun exit state' => (∃ error, exit = .refused error) ∧
      SessionRefused registry call start state')

theorem settles_pure {value : α} (h : SessionReached registry call start state)
    (hpost : post value state.book) :
    Settles registry call start (pure value : Registry E α) state post := ⟨h, hpost⟩

variable {error : E} {mid : SessionRegistryState} {nowMs : ℕ}

theorem settles_refuse (h : SessionRefused registry call start state) :
    Settles registry call start (fail (.refused error) : Registry E α) state post :=
  ⟨⟨error, rfl⟩, h⟩

theorem settles_done {x : Registry E α} {value : α} (hx : x state = (.ok value, state'))
    (h : SessionReached registry call start state') (hpost : post value state'.book) :
    Settles registry call start x state post := by
  unfold Settles Ensures
  rw [hx]
  exact ⟨h, hpost⟩

theorem settles_run {x : Registry E β} {f : β → Registry E α} {value : β}
    (hx : x state = (.ok value, state')) (h : Settles registry call start (f value) state' post) :
    Settles registry call start (x >>= f) state post :=
  ensures_bind_of_ok hx h

theorem settles_current {f : SessionRegistryState → Registry E α}
    (h : Settles registry call start (f state) state post) :
    Settles registry call start (current >>= f) state post :=
  settles_run rfl h

variable {f : Unit → Registry E α}

theorem settles_update {g : SessionRegistryState → SessionRegistryState}
    (h : Settles registry call start (f ()) (g state) post) :
    Settles registry call start (update g >>= f) state post :=
  settles_run rfl h

variable {condition : Prop}

theorem settles_refuseIf [Decidable condition] (hstay : SessionRefused registry call start state)
    (h : ¬condition → Settles registry call start (f ()) state post) :
    Settles registry call start (refuseIf condition error >>= f) state post :=
  failIf_bind (fun _ => ⟨⟨error, rfl⟩, hstay⟩) h

theorem settles_refuseSome {rejection : Option β} {error : β → E}
    (hstay : SessionRefused registry call start state)
    (h : rejection = none → Settles registry call start (f ()) state post) :
    Settles registry call start (refuseSome rejection error >>= f) state post := by
  cases rejection with
  | none => exact settles_run rfl (h rfl)
  | some rejected => exact ⟨⟨error rejected, rfl⟩, hstay⟩

variable {value : Option β}

theorem settles_okOr {f : β → Registry E α} (hstay : SessionRefused registry call start state)
    (h : ∀ found, value = some found → Settles registry call start (f found) state post) :
    Settles registry call start (okOr value (.refused error) >>= f) state post :=
  okOr_bind (fun _ => ⟨⟨error, rfl⟩, hstay⟩) h

theorem settles_tryWith {ε : Type} {result : Except ε β} {error : ε → E}
    {f : β → Registry E α} (hstay : SessionRefused registry call start state)
    (h : ∀ value, result = .ok value → Settles registry call start (f value) state post) :
    Settles registry call start (tryWith error result >>= f) state post := by
  cases result with
  | ok value => exact settles_run rfl (h value rfl)
  | error failure => exact ⟨⟨error failure, rfl⟩, hstay⟩

variable {message : String}

theorem settles_assertThat [Decidable condition] (hcondition : condition)
    (h : Settles registry call start (f ()) state post) :
    Settles registry call start (assertThat condition message >>= f) state post := by
  apply settles_run _ h
  unfold assertThat failIf
  rw [if_neg (not_not_intro hcondition)]
  rfl

theorem settles_expect {found : β} {f : β → Registry E α} (hvalue : value = some found)
    (h : Settles registry call start (f found) state post) :
    Settles registry call start (expect value message >>= f) state post := by
  subst hvalue
  exact settles_run rfl h

theorem settles_takeOpeningId {exhausted : E} {f : WriteOpeningId → Registry E α}
    (hstay : SessionRefused registry call start state)
    (h : Settles registry call start (f state.nextOpeningId)
      { state with nextOpeningId := state.nextOpeningId + 1 } post) :
    Settles registry call start (takeOpeningId exhausted >>= f) state post := by
  cases hnext : checkedAddU64 state.nextOpeningId 1 with
  | none =>
    have hrun : (takeOpeningId exhausted : Registry E _) state =
        (.error (.refused exhausted), state) := by
      unfold takeOpeningId
      rw [current_bind, hnext]
      rfl
    unfold Settles Ensures
    simp only [bind, hrun]
    exact ⟨⟨exhausted, rfl⟩, hstay⟩
  | some =>
    have heq := (checkedAddU64_eq_some hnext).1
    have hrun : (takeOpeningId exhausted : Registry E _) state =
        (.ok state.nextOpeningId,
          { state with nextOpeningId := state.nextOpeningId + 1 }) := by
      unfold takeOpeningId
      rw [current_bind, hnext, ← heq]
      rfl
    exact settles_run hrun h

theorem RegistryCall.sweeps_of_clock {book mid : SessionBook} (hclock : call.clock = some nowMs)
    (hswept : SessionBook.Swept nowMs book mid) : call.Sweeps book mid := by
  unfold RegistryCall.Sweeps
  rw [hclock]
  exact hswept

theorem RegistryCall.sweeps_refl (call : RegistryCall) (book : SessionBook) :
    call.Sweeps book book := by
  unfold RegistryCall.Sweeps
  cases call.clock with
  | none => rfl
  | some nowMs => exact SessionBook.Swept.refl nowMs book

theorem SessionRefused.of_swept (hclock : call.clock = some nowMs) (hsound : state.Sound registry)
    (hswept : SessionBook.Swept nowMs start state.book) :
    SessionRefused registry call start state :=
  ⟨hsound, state.book, call.sweeps_of_clock hclock hswept, .idle⟩

theorem SessionRefused.here (h : state.Sound registry) :
    SessionRefused registry call state.book state :=
  ⟨h, state.book, call.sweeps_refl state.book, .idle⟩

theorem SessionReached.of_effect (hclock : call.clock = some nowMs) (hmid : mid.Sound registry)
    (hswept : SessionBook.Swept nowMs start mid.book)
    (heffect : SessionEffect registry call mid.book state.book) (hindexed : state.Indexed) :
    SessionReached registry call start state :=
  ⟨⟨hindexed, heffect.coherent hmid.coherent, heffect.within hmid.within⟩, mid.book,
    call.sweeps_of_clock hclock hswept, heffect⟩

theorem SessionReached.of_effect' (hmid : mid.Sound registry)
    (heffect : SessionEffect registry call mid.book state.book) (hindexed : state.Indexed) :
    SessionReached registry call mid.book state :=
  ⟨⟨hindexed, heffect.coherent hmid.coherent, heffect.within hmid.within⟩, mid.book,
    call.sweeps_refl mid.book, heffect⟩

theorem SessionRefused.of_effect' (hmid : mid.Sound registry)
    (heffect : RefusalEffect call mid.book state.book) (hindexed : state.Indexed) :
    SessionRefused registry call mid.book state :=
  ⟨(SessionReached.of_effect' hmid heffect.effect hindexed).sound, mid.book,
    call.sweeps_refl mid.book, heffect⟩

theorem SessionRefused.of_effect (hclock : call.clock = some nowMs) (hmid : mid.Sound registry)
    (hswept : SessionBook.Swept nowMs start mid.book)
    (heffect : RefusalEffect call mid.book state.book) (hindexed : state.Indexed) :
    SessionRefused registry call start state :=
  ⟨(SessionReached.of_effect hclock hmid hswept heffect.effect hindexed).sound, mid.book,
    call.sweeps_of_clock hclock hswept, heffect⟩

end Rules

namespace SessionRegistryState.Sound

variable {E : Type} {registry : SessionRegistry} {state : SessionRegistryState}

theorem admits (h : state.Sound registry) {clientId : ClientId}
    (hroom : sessionRejection registry state clientId = none) :
    state.book.Admits registry clientId := by
  unfold sessionRejection at hroom
  split at hroom
  · cases hroom
  next hglobal =>
    split at hroom
    · cases hroom
    next hclient =>
      rw [h.indexed.clients, counted_getD] at hclient
      exact ⟨not_le.1 hglobal, not_le.1 hclient⟩

theorem settles_retireFor {α : Type} {call : RegistryCall} {inodeId : InodeId} {nowMs : ℕ}
    {f : Unit → Registry E α} {post : α → SessionBook → Prop} (h : state.Sound registry)
    (hclock : call.clock = some nowMs)
    (hnext : ∀ mid, mid.Sound registry → SessionBook.Swept nowMs state.book mid.book →
      SessionRefused registry call state.book mid →
      Settles registry call state.book (f ()) mid post) :
    Settles registry call state.book (retireFor inodeId nowMs >>= f) state post := by
  obtain ⟨mid, hrun, hmid, hswept, -⟩ := h.retireFor_run (E := E) inodeId nowMs
  exact settles_run hrun (hnext mid hmid hswept (.of_swept hclock hmid hswept))

/-! ## Opening sessions -/

theorem beginSessionAt_settles (h : state.Sound registry) (input : BeginSessionInput) (nowMs : ℕ) :
    Settles registry (.beginSession input nowMs) state.book
      (beginSessionAt registry input nowMs) state
      (fun owner book => owner.openingId = state.nextOpeningId ∧
        book.nextOpeningId = state.nextOpeningId + 1 ∧ (opening owner).Current book) := by
  unfold beginSessionAt
  apply settles_tryWith (.here h)
  intro _ hchain
  apply settles_retireFor h rfl
  intro mid hmid hswept hstay
  apply settles_current
  apply settles_refuseIf hstay
  intro hbusy
  have hnew : mid.entries.lookup input.inodeId = none := by
    by_contra hne
    exact hbusy (.inl hne)
  apply settles_refuseSome hstay
  intro hroom
  apply settles_okOr hstay
  intro epoch hepoch
  apply settles_takeOpeningId hstay
  have hindexed : SessionRegistryState.Indexed
      { mid with nextOpeningId := mid.nextOpeningId + 1 } := hmid.indexed.next _ _
  obtain ⟨state', hinsert, hindexed', hbook⟩ :=
    hindexed.insertEntry_run (E := BeginSessionError)
      (.opening (input.opening mid.nextOpeningId epoch
        (saturatingAddU64 nowMs registry.sessionTtlMs))) hnew
      (nodup_of_validateAncestorChain hchain) nofun rfl
  apply settles_run hinsert
  apply settles_pure
  · apply SessionReached.of_effect rfl hmid hswept _ hindexed'
    rw [hbook]
    exact .opened hchain hnew (hmid.admits hroom) hepoch
  · rw [hbook]
    refine ⟨hswept.nextOpeningId, congrArg (· + 1) hswept.nextOpeningId, ?_⟩
    exact ⟨_, (lookup_insertEntry _ _ _).trans (if_pos rfl), rfl⟩

variable {inodeId : InodeId} {session : WriteSession} {operationId : CreateFileOperationId}

theorem exactCreateSession_of_active (h : state.Sound registry)
    (hactive : state.activeCreateOperations.lookup operationId = some inodeId) :
    ∃ session replay, exactCreateSession state inodeId operationId = some session ∧
      session.createReplay = some replay := by
  obtain ⟨entry, hentry, hoperation⟩ := (h.indexed.activeCreates _ _).1 hactive
  cases entry with
  | opening => cases hoperation
  | active session =>
    have hcreate : session.createOperation = some operationId := hoperation
    obtain ⟨replay, hreplay, -⟩ := Option.map_eq_some_iff.1 hcreate
    refine ⟨session, replay, ?_, hreplay⟩
    unfold exactCreateSession
    simp only [hentry, hcreate, if_true]

theorem fresh_openingId (h : state.Sound registry) :
    state.createOpeningOperations.lookup state.nextOpeningId = none := by
  cases hfound : state.createOpeningOperations.lookup state.nextOpeningId with
  | none => rfl
  | some =>
    obtain ⟨opening, hopening, hid⟩ := (h.indexed.createOperations _ _).1 hfound
    have hlt : opening.openingId < state.nextOpeningId := h.coherent.createOpening hopening
    exact absurd (Option.some.inj hid) hlt.ne

theorem beginCreateSessionAt_settles (h : state.Sound registry)
    (input : BeginCreateSessionInput) (nowMs : ℕ) :
    Settles registry (.beginCreateSession input nowMs) state.book
      (beginCreateSessionAt registry input nowMs) state
      (fun result book => ∀ owner, result = .reserved owner →
        owner.openingId = state.nextOpeningId ∧ book.nextOpeningId = state.nextOpeningId + 1 ∧
          (createOpening owner).Current book) := by
  unfold beginCreateSessionAt
  apply settles_refuseIf (.here h)
  intro _
  apply settles_tryWith (.here h)
  intro _ hchain
  obtain ⟨_, mid, hcreate, hmid, hswept⟩ :=
    h.retireExpiredCreateOpeningForOperation_run (E := BeginCreateSessionError)
      input.operationId nowMs
  obtain ⟨_, mid', hall, hmid', hswept'⟩ :=
    hmid.retireExpiredEntries_run (E := BeginCreateSessionError) nowMs
  have hswept := hswept.trans hswept'
  have hstay : SessionRefused registry (.beginCreateSession input nowMs) state.book mid' :=
    .of_swept rfl hmid' hswept
  apply settles_run hcreate
  apply settles_run hall
  apply settles_current
  cases hactive : mid'.activeCreateOperations.lookup input.operationId with
  | some =>
    obtain ⟨session, replay, hexact, hreplay⟩ := hmid'.exactCreateSession_of_active hactive
    unfold replayActiveCreate
    apply settles_current
    apply settles_expect hexact
    apply settles_expect hreplay
    apply settles_refuseIf hstay
    intro _
    exact settles_pure hstay.reached nofun
  | none =>
    cases hpending : mid'.createOpenings.lookup input.operationId with
    | some => exact settles_refuse hstay
    | none =>
      unfold reserveCreateOpening
      apply settles_current
      apply settles_refuseIf hstay
      intro hbusy
      apply settles_refuseSome hstay
      intro hroom
      apply settles_takeOpeningId hstay
      have hindexed : SessionRegistryState.Indexed
          { mid' with nextOpeningId := mid'.nextOpeningId + 1 } := hmid'.indexed.next _ _
      obtain ⟨state', hinsert, hindexed', hbook⟩ :=
        hindexed.insertCreateOpening_run (E := BeginCreateSessionError)
          (input.opening mid'.nextOpeningId (saturatingAddU64 nowMs registry.sessionTtlMs))
          hpending (not_not.1 hbusy) hmid'.fresh_openingId
            (nodup_of_validateParentAncestorChain hchain)
      apply settles_run hinsert
      apply settles_pure
      · apply SessionReached.of_effect rfl hmid' hswept _ hindexed'
        rw [hbook]
        refine .reservedCreate hchain hpending ?_ (hmid'.admits hroom)
        intro inodeId entry hentry hoperation
        rw [(hmid'.indexed.activeCreates _ _).2 ⟨entry, hentry, hoperation⟩] at hactive
        cases hactive
      · intro owner heq
        cases heq
        rw [hbook]
        refine ⟨hswept.nextOpeningId, congrArg (· + 1) hswept.nextOpeningId, ?_⟩
        exact ⟨_, (lookup_insertCreate _ _ _).trans (if_pos rfl), rfl⟩

/-! ## Activating sessions -/

variable {openingId : WriteOpeningId}

theorem exactOpening_eq_some {opening : OpeningSession} :
    exactOpening state inodeId openingId = some opening ↔
      state.entries.lookup inodeId = some (.opening opening) ∧ opening.openingId = openingId := by
  unfold exactOpening
  split
  next found hfound =>
    rw [hfound]
    by_cases hid : found.openingId = openingId
    · rw [if_pos hid]
      constructor
      · intro heq
        cases heq
        exact ⟨rfl, hid⟩
      · intro hand
        cases hand.1
        rfl
    · rw [if_neg hid]
      constructor
      · exact nofun
      · intro hand
        cases hand.1
        exact absurd hand.2 hid
  next hother =>
    constructor
    · exact nofun
    · intro hand
      exact absurd hand.1 (hother opening)

theorem exactCreateOpening_eq_some {opening : CreateOpeningSession} :
    exactCreateOpening state operationId openingId = some opening ↔
      state.createOpenings.lookup operationId = some opening ∧ opening.openingId = openingId := by
  unfold exactCreateOpening
  cases hfound : state.createOpenings.lookup operationId with
  | none => simp
  | some found =>
    by_cases hid : found.openingId = openingId
    · simp only [hid, if_true, Option.some.injEq]
      constructor
      · intro heq
        exact ⟨heq, heq ▸ hid⟩
      · exact fun hand => hand.1
    · simp only [hid, if_false, Option.some.injEq]
      constructor
      · exact nofun
      · intro hand
        exact absurd (hand.1 ▸ hand.2) hid

theorem activateOpening_settles (h : state.Sound registry) (owner : WriteOpening)
    (returnedLeaseEpoch : LeaseEpoch) (file : FileData) (tail : Option LocatedBlock) (nowMs : ℕ) :
    Settles registry (.activateOpening owner returnedLeaseEpoch file tail nowMs) state.book
      (activateOpening registry owner.inodeId owner.openingId returnedLeaseEpoch nowMs file
        tail) state (fun _ _ => True) := by
  have hstay : SessionRefused registry (.activateOpening owner returnedLeaseEpoch file tail nowMs)
      state.book state := .here h
  unfold activateOpening
  apply settles_current
  apply settles_okOr hstay
  intro opening hexact
  obtain ⟨hopening, hid⟩ := exactOpening_eq_some.1 hexact
  by_cases hexpired : opening.expiresAtMs ≤ nowMs
  · rw [if_pos hexpired]
    obtain ⟨_, mid, hrun, hmid, hswept, -⟩ :=
      h.retireExpiredEntryForInode_run (E := WriteOpeningError) owner.inodeId nowMs
    apply settles_run hrun
    exact settles_refuse (.of_swept rfl hmid hswept)
  · rw [if_neg hexpired]
    apply settles_refuseIf hstay
    intro hepoch
    apply settles_refuseIf hstay
    intro hfile
    apply settles_refuseIf hstay
    intro htail
    let counted : SessionRegistryState := { state with
      outstandingWriteTargets :=
        state.outstandingWriteTargets + if tail.isSome then 1 else 0 }
    let replaced : SessionRegistryState := { counted with
      entries := state.entries.insert owner.inodeId (.active (opening.activated file tail)) }
    let activated : SessionRegistryState := { replaced with
      openingSessions := state.openingSessions - 1 }
    have hcurrent : exactOpening counted owner.inodeId owner.openingId ≠ none :=
      Option.ne_none_iff_exists'.2 ⟨opening, exactOpening_eq_some.2 ⟨hopening, hid⟩⟩
    have hone : 1 ≤ state.openingSessions := by
      have hload := openingLoad_eraseEntry
        (show state.book.entries.lookup owner.inodeId = _ from hopening)
      rw [← h.indexed.openings] at hload
      exact hload ▸ Nat.le_add_left 1 _
    have hreleased : (releaseOpening "activated write session must own one opening count" :
        Registry WriteOpeningError Unit) replaced = (.ok (), activated) :=
      releaseOpening_run hone
    have hindexed : activated.Indexed := by
      apply h.indexed.replaceEntry hopening
      · rfl
      · rfl
      · exact h.indexed.expiries.keep hopening rfl
      · exact h.indexed.ancestors_keep hopening rfl rfl
      · change state.openingSessions - 1 + 1 = state.openingSessions + 0
        omega
      · cases tail with
        | none | some => rfl
      · rfl
    apply settles_update
    apply settles_current
    apply settles_assertThat hcurrent
    apply settles_update
    apply settles_run hreleased
    apply settles_run hindexed.gauges
    refine settles_pure ?_ trivial
    apply SessionReached.of_effect rfl h (SessionBook.Swept.refl nowMs state.book) _ hindexed
    refine .activated hopening hid (not_le.1 hexpired) (not_not.1 hepoch) ?_ ?_
    · exact ⟨not_not.1 fun hne => hfile (.inl hne), not_not.1 fun hne => hfile (.inr hne)⟩
    · intro hsome
      rw [← h.indexed.outstanding]
      exact not_le.1 fun hfull => htail ⟨hsome, hfull⟩

theorem activateCreateOpening_settles (h : state.Sound registry) (owner : CreateOpening)
    (inodeId : InodeId) (leaseEpoch : LeaseEpoch) (expiresAtMs : ℕ) (layout : FileLayout)
    (generation : ContentGeneration) (nowMs : ℕ) :
    Settles registry (.activateCreateOpening owner inodeId leaseEpoch expiresAtMs layout
        generation nowMs) state.book
      (activateCreateOpening owner.operationId owner.openingId inodeId leaseEpoch expiresAtMs
        layout generation nowMs) state (fun _ _ => True) := by
  have hstay : SessionRefused registry
      (.activateCreateOpening owner inodeId leaseEpoch expiresAtMs layout generation nowMs)
      state.book state := .here h
  unfold activateCreateOpening
  apply settles_current
  apply settles_okOr hstay
  intro opening hexact
  obtain ⟨hopening, hid⟩ := exactCreateOpening_eq_some.1 hexact
  obtain ⟨mid, hremove, hmid, hbook⟩ := h.removeCreateOpening_run (E := WriteOpeningError) hopening
  by_cases hexpired : opening.expiresAtMs ≤ nowMs ∨ expiresAtMs ≤ nowMs
  · rw [if_pos hexpired]
    apply settles_run hremove
    apply settles_refuse
    apply SessionRefused.of_effect' h _ hmid.indexed
    rw [hbook]
    exact .createExpired hopening hid
  · rw [if_neg hexpired]
    apply settles_refuseIf hstay
    intro hbusy
    have hnew : state.entries.lookup inodeId = none := by
      by_contra hne
      exact hbusy (.inr hne)
    apply settles_tryWith hstay
    intro _ hchain
    apply settles_run hremove
    apply settles_expect rfl
    have hnew' : mid.entries.lookup inodeId = none := by
      rw [show mid.entries = state.entries from congrArg SessionBook.entries hbook]
      exact hnew
    have hfree : mid.activeCreateOperations.lookup owner.operationId = none := by
      cases hactive : mid.activeCreateOperations.lookup owner.operationId with
      | none => rfl
      | some =>
        obtain ⟨entry, hentry, hoperation⟩ := (hmid.indexed.activeCreates _ _).1 hactive
        rw [show mid.entries = state.entries from congrArg SessionBook.entries hbook] at hentry
        exact absurd hoperation (h.coherent.exclusive hopening hentry)
    obtain ⟨state', hinsert, hindexed, hbook'⟩ :=
      hmid.indexed.insertEntry_run (E := WriteOpeningError)
        (.active (opening.activated owner.operationId inodeId leaseEpoch expiresAtMs layout
          generation)) hnew' (nodup_of_validateAncestorChain hchain)
        (fun operationId heq => by
          cases heq
          exact hfree) rfl
    apply settles_run hinsert
    refine settles_pure ?_ trivial
    apply SessionReached.of_effect' h _ hindexed
    rw [hbook', hbook]
    exact .created hopening hid (not_le.1 fun hle => hexpired (.inr hle)) hnew hchain

/-! ## Allocating write targets -/

theorem activeSession_eq_ok : activeSession state inodeId = .ok session ↔
      state.entries.lookup inodeId = some (.active session) := by
  unfold activeSession
  split
  next found hfound => simp [hfound]
  next found hfound => simp [hfound]
  next hnone => simp [hnone]

theorem expectActive_run {message : String}
    (hsession : state.entries.lookup inodeId = some (.active session)) :
    (expectActive inodeId message : Registry E WriteSession) state = (.ok session, state) := by
  unfold expectActive
  rw [current_bind, activeSession_eq_ok.2 hsession]
  rfl

theorem beginAllocateBlock_settles (h : state.Sound registry) (inodeId : InodeId)
    (leaseEpoch : LeaseEpoch) (previousBlockId : Option BlockId) (nowMs : ℕ) :
    Settles registry (.beginAllocateBlock inodeId leaseEpoch previousBlockId nowMs) state.book
      (beginAllocateBlock registry inodeId leaseEpoch previousBlockId nowMs) state
      (fun result book => ∀ owner, result = .reserved owner →
        (RegistryOwner.reservation owner).Current book) := by
  unfold beginAllocateBlock
  apply settles_retireFor h rfl
  intro mid hmid hswept hstay
  apply settles_current
  apply settles_tryWith hstay
  intro session hactive
  have hsession := activeSession_eq_ok.1 hactive
  apply settles_refuseIf hstay
  intro hepoch
  cases hstep : session.issuedSteps.lookup previousBlockId with
  | some =>
    apply settles_okOr hstay
    intro target _
    exact settles_pure hstay.reached nofun
  | none =>
    unfold reserveWriteTarget
    apply settles_refuseIf hstay
    intro hpublication
    apply settles_refuseIf hstay
    intro hprevious
    apply settles_refuseIf hstay
    intro hpending
    apply settles_tryWith hstay
    intro fileOffset hoffset
    apply settles_refuseIf hstay
    intro hroom
    apply settles_current
    apply settles_refuseIf hstay
    intro htotal
    let session' : WriteSession :=
      { session with pendingAllocateBlock := some ⟨previousBlockId⟩ }
    let put : SessionRegistryState := { mid with
      entries := mid.entries.insert inodeId (.active session') }
    let reserved : SessionRegistryState := { put with
      outstandingWriteTargets := mid.outstandingWriteTargets + 1
      pendingWriteTargets := mid.pendingWriteTargets + 1 }
    have hidle : session.pendingAllocateBlock = none := not_not.1 hpending
    have hindexed : reserved.Indexed := by
      apply hmid.indexed.replaceEntry hsession
      · rfl
      · rfl
      · exact hmid.indexed.expiries.keep hsession rfl
      · exact hmid.indexed.ancestors_keep hsession rfl rfl
      · rfl
      · simp [WriteSessionEntry.ownedTargets, WriteSession.ownedTargets, hidle, session']
        omega
      · simp [WriteSessionEntry.pendingTargets, WriteSession.pendingTargets, hidle, session']
    have hbound := registry.maxWriteTargets_lt
    have hpendingLe : mid.pendingWriteTargets ≤ mid.outstandingWriteTargets := by
      rw [hmid.indexed.pending, hmid.indexed.outstanding]
      exact pendingLoad_le mid.book
    have houtstanding : checkedAddU64 mid.outstandingWriteTargets 1 =
        some (mid.outstandingWriteTargets + 1) := checkedAddU64_of_lt (by omega)
    have hpendings : checkedAddU64 mid.pendingWriteTargets 1 =
        some (mid.pendingWriteTargets + 1) := checkedAddU64_of_lt (by omega)
    apply settles_run (expectActive_run hsession)
    apply settles_assertThat hidle
    unfold putSession
    apply settles_update
    apply settles_expect houtstanding
    apply settles_expect hpendings
    apply settles_update
    apply settles_run hindexed.targetGauges
    apply settles_pure
    · apply SessionReached.of_effect rfl hmid hswept _ hindexed
      refine .reserved hsession (not_not.1 hepoch) hstep (not_not.1 hpublication)
        (not_not.1 hprevious) hidle hoffset (not_le.1 hroom) ?_
      rw [← hmid.indexed.outstanding]
      exact not_le.1 htotal
    · intro owner heq
      cases heq
      refine ⟨session', ?_, not_not.1 hepoch⟩
      exact (SessionBook.lookup_putEntry mid.book inodeId inodeId _).trans (if_pos rfl)

variable {pending : PendingAllocateBlock}

theorem pendingMatches_iff {leaseEpoch : LeaseEpoch} :
    pendingMatches state inodeId leaseEpoch pending = true ↔
      ∃ session, state.entries.lookup inodeId = some (.active session) ∧
        session.leaseEpoch = leaseEpoch ∧ session.pendingAllocateBlock = some pending := by
  unfold pendingMatches
  split
  next session hsession => simp [hsession]
  next hother =>
    constructor
    · exact nofun
    · rintro ⟨session, hsession, -⟩
      exact absurd hsession (hother session)

theorem cancelWriteTargetLocked_run (h : state.Sound registry)
    (hsession : state.entries.lookup inodeId = some (.active session))
    (hpending : session.pendingAllocateBlock = some pending) :
    ∃ state', (cancelWriteTargetLocked inodeId session.leaseEpoch pending :
        Registry E Bool) state = (.ok true, state') ∧ state'.Indexed ∧
      state'.book = state.book.putEntry inodeId
        (.active { session with pendingAllocateBlock := none }) := by
  let put : SessionRegistryState := { state with
    entries := state.entries.insert inodeId
      (.active { session with pendingAllocateBlock := none }) }
  let released : SessionRegistryState := { put with
    outstandingWriteTargets := state.outstandingWriteTargets - 1 }
  let cancelled : SessionRegistryState := { released with
    pendingWriteTargets := state.pendingWriteTargets - 1 }
  have hpendingPos : 1 ≤ state.pendingWriteTargets := by
    have hload := SessionBook.pendingLoad_eraseEntry
      (show state.book.entries.lookup inodeId = _ from hsession)
    rw [← h.indexed.pending] at hload
    simp only [WriteSessionEntry.pendingTargets, WriteSession.pendingTargets, hpending,
      Option.isSome_some, if_true] at hload
    omega
  have houtstandingPos : 1 ≤ state.outstandingWriteTargets := by
    have hle := pendingLoad_le state.book
    rw [← h.indexed.pending, ← h.indexed.outstanding] at hle
    omega
  have hindexed : cancelled.Indexed := by
    apply h.indexed.replaceEntry hsession
    · rfl
    · rfl
    · exact h.indexed.expiries.keep hsession rfl
    · exact h.indexed.ancestors_keep hsession rfl rfl
    · rfl
    · change state.outstandingWriteTargets - 1 + _ = state.outstandingWriteTargets + _
      simp only [WriteSessionEntry.ownedTargets, WriteSession.ownedTargets, hpending,
        Option.isSome_some, Option.isSome_none, if_true, Bool.false_eq_true, if_false]
      omega
    · simp only [WriteSessionEntry.pendingTargets, WriteSession.pendingTargets, hpending,
        Option.isSome_some, Option.isSome_none, if_true, Bool.false_eq_true, if_false]
      omega
  have hreleased : (releaseOutstanding 1 "pending target must own one outstanding count" :
      Registry E Unit) put = (.ok (), released) := releaseOutstanding_run houtstandingPos
  have hcancelled : (releasePending 1 "pending target must own one pending count" :
      Registry E Unit) released = (.ok (), cancelled) := releasePending_run hpendingPos
  have hmatches : pendingMatches state inodeId session.leaseEpoch pending = true :=
    pendingMatches_iff.2 ⟨session, hsession, rfl, hpending⟩
  refine ⟨cancelled, ?_, hindexed, rfl⟩
  unfold cancelWriteTargetLocked
  rw [current_bind, if_pos hmatches, bind_of_ok (expectActive_run hsession),
    assertThat_bind hpending]
  unfold putSession
  rw [update_bind, bind_of_ok hreleased, bind_of_ok hcancelled, bind_of_ok hindexed.targetGauges]
  rfl

theorem cancelWriteTarget_settles (h : state.Sound registry) (owner : WriteTargetReservation) :
    Settles registry (.dropReservation owner) state.book
      (cancelWriteTargetLocked owner.inodeId owner.leaseEpoch owner.pending :
        Registry E Bool) state (fun _ _ => True) := by
  by_cases hmatches : pendingMatches state owner.inodeId owner.leaseEpoch owner.pending = true
  · obtain ⟨session, hsession, hepoch, hpending⟩ := pendingMatches_iff.1 hmatches
    rw [← hepoch]
    obtain ⟨state', hrun, hindexed, hbook⟩ :=
      h.cancelWriteTargetLocked_run (E := E) hsession hpending
    unfold Settles Ensures
    rw [hrun]
    refine ⟨SessionReached.of_effect' h ?_ hindexed, trivial⟩
    rw [hbook]
    exact .releasedTarget hsession hepoch hpending
  · unfold cancelWriteTargetLocked
    apply settles_current
    rw [if_neg hmatches]
    exact settles_pure (SessionRefused.here h).reached trivial

theorem completeWriteTarget_settles (h : state.Sound registry)
    (owner : WriteTargetReservation) (target : LocatedBlock) (nowMs : ℕ) :
    Settles registry (.completeTarget owner target nowMs) state.book
      (completeWriteTarget owner.inodeId owner.leaseEpoch owner.pending target nowMs) state
      (fun _ _ => True) := by
  unfold completeWriteTarget
  apply settles_retireFor h rfl
  intro mid hmid hswept hstay
  apply settles_current
  apply settles_tryWith hstay
  intro session hactive
  have hsession := activeSession_eq_ok.1 hactive
  apply settles_refuseIf hstay
  intro hepoch
  apply settles_refuseIf hstay
  intro hpending
  have hepoch := not_not.1 hepoch
  have hpending := not_not.1 hpending
  cases htarget : validateWriteTarget session owner.leaseEpoch target with
  | error =>
    rw [← hepoch]
    obtain ⟨state', hcancel, hindexed, hbook⟩ :=
      hmid.cancelWriteTargetLocked_run (E := CompleteWriteTargetError) hsession hpending
    apply settles_run hcancel
    apply settles_refuse
    apply SessionRefused.of_effect rfl hmid hswept _ hindexed
    rw [hbook]
    exact .refusedTarget hsession hepoch hpending
  | ok =>
    let issued : SessionRegistryState := { mid with
      entries := mid.entries.insert owner.inodeId
        (.active (session.issued owner.pending target)) }
    let completed : SessionRegistryState := { issued with
      pendingWriteTargets := mid.pendingWriteTargets - 1 }
    have hpendingPos : 1 ≤ mid.pendingWriteTargets := by
      have hload := SessionBook.pendingLoad_eraseEntry
        (show mid.book.entries.lookup owner.inodeId = _ from hsession)
      rw [← hmid.indexed.pending] at hload
      simp only [WriteSessionEntry.pendingTargets, WriteSession.pendingTargets, hpending,
        Option.isSome_some, if_true] at hload
      omega
    have hindexed : completed.Indexed := by
      apply hmid.indexed.replaceEntry hsession
      · rfl
      · rfl
      · exact hmid.indexed.expiries.keep hsession rfl
      · exact hmid.indexed.ancestors_keep hsession rfl rfl
      · rfl
      · change mid.outstandingWriteTargets + _ = mid.outstandingWriteTargets + _
        simp [WriteSessionEntry.ownedTargets, WriteSession.ownedTargets, hpending,
          WriteSession.issued]
      · simp only [WriteSessionEntry.pendingTargets, WriteSession.pendingTargets, hpending,
          WriteSession.issued, Option.isSome_some, Option.isSome_none, if_true,
          Bool.false_eq_true, if_false]
        omega
    have hcompleted : (releasePending 1 "completed target must own one pending count" :
        Registry CompleteWriteTargetError Unit) issued = (.ok (), completed) :=
      releasePending_run hpendingPos
    unfold issueTarget
    apply settles_run (expectActive_run hsession)
    apply settles_assertThat ((hmid.coherent.session hsession).step _ hpending)
    apply settles_assertThat hpending
    unfold putSession
    apply settles_update
    apply settles_run hcompleted
    apply settles_run hindexed.targetGauges
    refine settles_pure ?_ trivial
    apply SessionReached.of_effect rfl hmid hswept _ hindexed
    exact .issued hsession hepoch hpending htarget

end SessionRegistryState.Sound

end Beryl
