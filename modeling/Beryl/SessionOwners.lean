import Beryl.SessionActivity

/-!
# Submitted publications and stale owners

From its submission to its completion a publication keeps its session: only the
publication itself, or a removal that names its epoch, ends the session.  An owner whose
session is gone stays without one, and its calls do nothing but sweep.
-/

namespace Beryl

open Transaction Registry History SessionBook SessionWorld.Runs

/-! ## Pinned sessions -/

variable {inodeId : InodeId}

theorem SessionStep.of_pinned {registry : SessionRegistry} {nextPublicationId : ℕ}
    {call : RegistryCall} {session session' : WriteSession}
    (h : SessionStep registry nextPublicationId inodeId call session session')
    (hcoherent : session.Coherent nextPublicationId)
    (hpinned : session.publicationSubmitted = true) {publicationId : WritePublicationId}
    (hpublication : session.activePublication = some publicationId) :
    (∃ expiresAtMs, session' = { session with expiresAtMs := expiresAtMs }) ∨
      ∃ caller generation fileSize nowMs,
        call = .completeSync caller generation fileSize nowMs ∧
          caller.publicationId = publicationId := by
  have hidle : session.pendingAllocateBlock = none := by
    by_contra hpending
    exact absurd (hcoherent.idle hpending) (by rw [hpublication]; exact nofun)
  cases h with
  | idle => exact .inl ⟨session.expiresAtMs, rfl⟩
  | reserved hepoch hstep hnone | publishing hepoch hpending hnone =>
    cases hpublication.symm.trans hnone
  | issued hinode hepoch hpending | refusedTarget hinode hepoch hpending
  | releasedTarget hinode hepoch hpending => cases hidle.symm.trans hpending
  | submitted hinode hepoch howned hlive howner hunpinned
  | unpublished hinode hepoch howned howner hunpinned => cases hpinned.symm.trans hunpinned
  | syncReplayed hinode hepoch howned | synced hinode hepoch howned =>
    exact .inr ⟨_, _, _, _, rfl, Option.some.inj (howned.symm.trans hpublication)⟩
  | renewed => exact .inl ⟨_, rfl⟩

/-- The completion or the removal that ends the life of a publication's session. -/
def WritePublication.Ends (owner : WritePublication)
    (t : Transition SessionWorld RegistryCall) : Prop :=
  match t.label with
  -- a sync that succeeds uses its owner up; one that fails leaves it
  | .completeSync caller _ _ _ => caller.publicationId = owner.publicationId ∧
      ¬t.after.Holds (.publication caller)
  | .completeCommit caller => caller.publicationId = owner.publicationId
  | .removeSessionIfEpoch inodeId leaseEpoch =>
    inodeId = owner.session.inodeId ∧ leaseEpoch = owner.session.leaseEpoch
  | _ => False

/-- The session that a submitted publication owns, up to its lease expiry. -/
structure WritePublication.Pins (owner : WritePublication) (session : WriteSession)
    (world : SessionWorld) : Prop where
  epoch : session.leaseEpoch = owner.session.leaseEpoch
  publication : session.activePublication = some owner.publicationId
  pinned : session.publicationSubmitted = true
  entry : ∃ expiresAtMs, world.state.entries.lookup owner.session.inodeId =
    some (.active { session with expiresAtMs := expiresAtMs })

namespace SessionWorld

variable {registry : SessionRegistry} {world world' : SessionWorld} {call : RegistryCall}

theorem holds_release {owner other : RegistryOwner} (h : (world.release other).Holds owner) :
    world.Holds owner := by
  cases other <;> cases owner <;> first | exact h | exact List.mem_of_mem_erase h

theorem holds_afterCall {armed : Bool} {state : SessionRegistryState} {owner : RegistryOwner}
    (h : (world.afterCall call armed state).Holds owner) : world.Holds owner := by
  have hworld : SessionWorld.Holds { world with state := state } owner → world.Holds owner := by
    cases owner <;> exact id
  unfold afterCall at h
  split at h
  · split at h
    · exact hworld h
    · exact hworld (holds_release h)
  · exact hworld h

theorem holds_receive {owner other : RegistryOwner} (h : (world.receive other).Holds owner) :
    owner = other ∨ world.Holds owner := by
  cases other <;> cases owner <;>
    first
      | exact .inr h
      | exact (List.mem_cons.1 h).imp (congrArg _) id

theorem Sound.completeSync_refuses (h : world.Sound registry) {caller : WritePublication}
    {generation : ContentGeneration} {fileSize nowMs : ℕ}
    (hallows : world.Allows (.completeSync caller generation fileSize nowMs))
    (houtcome : SessionOutcome registry world
      (.completeSync caller generation fileSize nowMs) world')
    (hheld : world'.Holds (.publication caller)) :
    RegistryCall.Refuses (.completeSync caller generation fileSize nowMs) world.state.book
      world'.state.book := by
  have hcaller : caller ∈ world.publications := hallows _ rfl
  have hgone : ∀ state, ¬(world.afterCall (.completeSync caller generation fileSize nowMs)
      false state).Holds (.publication caller) :=
    fun state hmem => h.released hcaller hmem rfl
  cases houtcome with
  | handed hreached hhanded =>
    rcases holds_receive hheld with rfl | hmem
    · exact absurd hhanded.2.1 (h.issued caller hcaller).ne
    · exact absurd hmem (hgone _)
  | answered hreached => exact absurd hheld (hgone _)
  | refused hrefused =>
    rw [afterCall_state]
    exact hrefused.refuses

variable {owner : WritePublication}

/-- Before the last clock value, a pinned session outlives every call that does not end
its publication. -/
theorem Sound.pins_step (h : world.Sound registry) (hallows : world.Allows call)
    (houtcome : SessionOutcome registry world call world')
    (hclock : ∀ nowMs, call.clock = some nowMs → nowMs < u64Max) {session : WriteSession}
    (hends : ¬owner.Ends ⟨world, call, world'⟩) (hpins : owner.Pins session world) :
    owner.Pins session world' := by
  obtain ⟨expiresAtMs, hentry⟩ := hpins.entry
  have hretirement : WriteSession.retirementAtMs { session with expiresAtMs := expiresAtMs } =
      u64Max := WriteSession.retirementAtMs_pinned _ hpins.pinned
  refine ⟨hpins.epoch, hpins.publication, hpins.pinned, ?_⟩
  rcases houtcome.moves.fate hentry with ⟨session', hsession', hstep⟩ | hended | hexpired
  · rcases hstep.of_pinned (h.state.coherent.session hentry) hpins.pinned hpins.publication
      with ⟨expiresAtMs', rfl⟩ | ⟨caller, generation, fileSize, nowMs, rfl, hcaller⟩
    · exact ⟨expiresAtMs', hsession'⟩
    · have hheld : world'.Holds (.publication caller) := by
        by_contra hgone
        exact hends ⟨hcaller, hgone⟩
      obtain ⟨mid, hsweeps, heffect⟩ := h.completeSync_refuses hallows houtcome hheld
      generalize hbook : world'.state.book = book at heffect
      cases heffect
      have hentries : world'.state.entries = mid.entries := congrArg entries hbook
      rw [hentries]
      rcases hsweeps.lookup_or_expired hentry with hkept | ⟨now, hnow, hexpired⟩
      · exact ⟨expiresAtMs, hkept⟩
      · exact absurd (hclock now hnow) (not_lt.2 (hretirement ▸ hexpired))
  · exfalso
    cases hended.2 with
    | committed hinode hepoch hpublication =>
      exact hends (Option.some.inj (hpublication.symm.trans hpins.publication))
    | removed => exact hends ⟨rfl, hpins.epoch⟩
  · obtain ⟨now, hnow, hexpired⟩ := hexpired
    exact absurd (hclock now hnow) (not_lt.2 (hretirement ▸ hexpired))

theorem Sound.pins_of_submitted (h : world.Sound registry)
    {nowMs : ℕ} (hallows : world.Allows (.markSubmitted owner nowMs))
    (houtcome : SessionOutcome registry world (.markSubmitted owner nowMs) world')
    (hunsubmitted : owner.submitted = false)
    (hsucceeded : world'.Holds (.publication { owner with submitted := true })) :
    ∃ session, owner.Pins session world' := by
  have howner : owner ∈ world.publications := hallows _ rfl
  have hnew : ¬world.Holds (.publication { owner with submitted := true }) := by
    intro hmem
    have hne : ({ owner with submitted := true } : WritePublication) ≠ owner := by
      intro heq
      rw [← congrArg WritePublication.submitted heq] at hunsubmitted
      cases hunsubmitted
    exact h.released howner ((List.mem_erase_of_ne hne).2 hmem) rfl
  cases houtcome with
  | answered hreached | refused hrefused => exact absurd (holds_afterCall hsucceeded) hnew
  | handed hreached hhanded =>
    rcases holds_receive hsucceeded with rfl | hmem
    · obtain ⟨session, hsession, hepoch, hpublication, hpinned⟩ := hhanded.2.1 hunsubmitted
      refine ⟨session, hepoch, hpublication, hpinned, session.expiresAtMs, ?_⟩
      rw [receive_state, afterCall_state]
      exact hsession
    · exact absurd (holds_afterCall hmem) hnew

end SessionWorld

/-! ## Stale owners -/

/-- The inodes with an active session, with the epochs of the sessions. -/
def SessionBook.epochs (book : SessionBook) : Multiset (InodeId × LeaseEpoch) :=
  book.entries.entries.filterMap fun entry =>
    match entry.2 with
    | .active session => some (entry.1, session.leaseEpoch)
    | .opening _ => none

variable {leaseEpoch : LeaseEpoch}

theorem SessionBook.mem_epochs {book : SessionBook} : (inodeId, leaseEpoch) ∈ book.epochs ↔
      ∃ session, book.entries.lookup inodeId = some (.active session) ∧
        session.leaseEpoch = leaseEpoch := by
  unfold epochs
  rw [Multiset.mem_filterMap]
  constructor
  · rintro ⟨⟨key, opening | session⟩, hmem, heq⟩
    · cases heq
    · cases heq
      exact ⟨session, Finmap.mem_lookup_iff.2 hmem, rfl⟩
  · rintro ⟨session, hsession, rfl⟩
    exact ⟨⟨inodeId, .active session⟩, Finmap.mem_lookup_iff.1 hsession, rfl⟩

/-- In a run, newest step first: a session that appears has a larger epoch than every
session its inode had before. -/
def EpochsIncrease : List (Transition SessionWorld RegistryCall) → Prop
  | [] => True
  | t :: older =>
    (∀ born ∈ t.after.state.book.epochs, born ∉ t.before.state.book.epochs →
      ∀ earlier ∈ visited older t.before, ∀ old ∈ earlier.state.book.epochs,
        old.1 = born.1 → old.2 < born.2) ∧ EpochsIncrease older

instance decidableEpochsIncrease :
    (past : List (Transition SessionWorld RegistryCall)) → Decidable (EpochsIncrease past)
  | [] => isTrue trivial
  | t :: older =>
    have := decidableEpochsIncrease older
    inferInstanceAs (Decidable ((∀ born ∈ t.after.state.book.epochs, _) ∧ _))

def RegistryOwner.Known (past : List (Transition SessionWorld RegistryCall))
    (world : SessionWorld) : RegistryOwner → Prop
  | .opening owner => owner.openingId < world.state.nextOpeningId
  | .createOpening owner => owner.openingId < world.state.nextOpeningId
  | .reservation owner => ∃ earlier ∈ visited past world,
      (owner.inodeId, owner.leaseEpoch) ∈ earlier.state.book.epochs
  | .publication owner => ∃ earlier ∈ visited past world,
      (owner.session.inodeId, owner.session.leaseEpoch) ∈ earlier.state.book.epochs

theorem RegistryOwner.Current.of_sweeps {owner : RegistryOwner} {call : RegistryCall}
    {book mid : SessionBook} (h : owner.Current mid) (hsweeps : call.Sweeps book mid) :
    owner.Current book := by
  cases owner with
  | opening owner =>
    obtain ⟨found, hfound, hid⟩ := h
    exact ⟨found, hsweeps.lookup_of_some hfound, hid⟩
  | createOpening owner =>
    obtain ⟨found, hfound, hid⟩ := h
    exact ⟨found, hsweeps.createLookup_of_some hfound, hid⟩
  | reservation owner | publication owner =>
    obtain ⟨session, hsession, hepoch⟩ := h
    exact ⟨session, hsweeps.lookup_of_some hsession, hepoch⟩

namespace SessionWorld

variable {registry : SessionRegistry} {world world' : SessionWorld} {call : RegistryCall}
  {past : List (Transition SessionWorld RegistryCall)} {owner : RegistryOwner}

theorem Sound.known_of_current (h : world.Sound registry)
    (hcurrent : owner.Current world.state.book) : owner.Known past world := by
  cases owner with
  | opening owner =>
    obtain ⟨found, hfound, hid⟩ := hcurrent
    exact lt_of_eq_of_lt hid.symm (h.state.coherent.opening hfound)
  | createOpening owner =>
    obtain ⟨found, hfound, hid⟩ := hcurrent
    exact lt_of_eq_of_lt hid.symm (h.state.coherent.createOpening hfound)
  | reservation owner | publication owner =>
    exact ⟨world, self_mem_visited, mem_epochs.2 hcurrent⟩

theorem known_next (hknown : owner.Known past world)
    (hmoves : call.Moves registry world.state.book world'.state.book) :
    owner.Known (⟨world, call, world'⟩ :: past) world' := by
  cases owner with
  | opening owner | createOpening owner => exact lt_of_lt_of_le hknown hmoves.nextOpeningId_le
  | reservation owner | publication owner =>
    obtain ⟨earlier, hearlier, hmem⟩ := hknown
    exact ⟨earlier, List.mem_cons_of_mem _ hearlier, hmem⟩

theorem epoch_stays_gone (hincrease : EpochsIncrease (⟨world, call, world'⟩ :: past))
    (hknown : ∃ earlier ∈ visited past world, (inodeId, leaseEpoch) ∈ earlier.state.book.epochs)
    (hgone : (inodeId, leaseEpoch) ∉ world.state.book.epochs) :
    (inodeId, leaseEpoch) ∉ world'.state.book.epochs := by
  intro hborn
  obtain ⟨earlier, hearlier, hmem⟩ := hknown
  exact absurd (hincrease.1 _ hborn hgone earlier hearlier _ hmem rfl) (lt_irrefl _)

theorem stale_next (hknown : owner.Known past world)
    (hmoves : call.Moves registry world.state.book world'.state.book)
    (hincrease : EpochsIncrease (⟨world, call, world'⟩ :: past))
    (hstale : ¬owner.Current world.state.book) : ¬owner.Current world'.state.book := by
  cases owner with
  | opening owner =>
    rintro ⟨found, hfound, hid⟩
    obtain ⟨mid, hsweeps, heffect⟩ := hmoves
    rcases heffect.opening_origin hfound with hold | ⟨hnew, -⟩
    · exact hstale ⟨found, hsweeps.lookup_of_some hold, hid⟩
    · rw [hid, hsweeps.nextOpeningId] at hnew
      exact absurd hnew (ne_of_lt hknown)
  | createOpening owner =>
    rintro ⟨found, hfound, hid⟩
    obtain ⟨mid, hsweeps, heffect⟩ := hmoves
    rcases heffect.create_origin hfound with hold | hnew
    · exact hstale ⟨found, hsweeps.createLookup_of_some hold, hid⟩
    · rw [hid, hsweeps.nextOpeningId] at hnew
      exact absurd hnew (ne_of_lt hknown)
  | reservation owner | publication owner =>
    have hgone := epoch_stays_gone hincrease hknown (mem_epochs.not.2 hstale)
    exact mem_epochs.not.1 hgone

theorem current_of_handed (hallows : world.Allows call)
    (houtcome : SessionOutcome registry world call world') (hbefore : ¬world.Holds owner)
    (hafter : world'.Holds owner) : owner.Current world'.state.book := by
  cases houtcome with
  | answered hreached | refused hrefused => exact absurd (holds_afterCall hafter) hbefore
  | handed hreached hhanded =>
    rcases holds_receive hafter with rfl | hmem
    · rw [receive_state, afterCall_state]
      cases owner with
      | opening owner => exact hhanded.2.2
      | createOpening owner => exact hhanded.2.2
      | reservation owner => exact hhanded
      | publication owner =>
        simp only [RegistryOwner.Handed] at hhanded
        split at hhanded
        next caller nowMs =>
          subst hhanded
          exact absurd (hallows _ rfl) hbefore
        next caller nowMs =>
          obtain ⟨rfl, hpinned, -⟩ := hhanded
          cases hsubmitted : caller.submitted with
          | true =>
            have heq : ({ caller with submitted := true } : WritePublication) =
                caller := by rw [← hsubmitted]
            rw [heq] at hbefore
            exact absurd (hallows _ rfl) hbefore
          | false =>
            obtain ⟨session, hsession, hepoch, -⟩ := hpinned hsubmitted
            exact ⟨session, hsession, hepoch⟩
        next => exact ⟨_, hhanded.2.2.2.1, rfl⟩
    · exact absurd (holds_afterCall hmem) hbefore

variable {newer older : List (Transition SessionWorld RegistryCall)}
    {t : Transition SessionWorld RegistryCall}

theorem Runs.stale (hrun : Runs registry (newer ++ t :: older) world)
    (hincrease : EpochsIncrease (newer ++ t :: older))
    (hbefore : ¬t.before.Holds owner) (hafter : t.after.Holds owner) :
    owner.Known (newer ++ t :: older) world ∧
      ((∃ gone ∈ visited newer world, ¬owner.Current gone.state.book) →
        ¬owner.Current world.state.book) := by
  induction newer generalizing world with
  | nil =>
    cases hrun with
    | next hrun hallows hstep =>
      have houtcome := (Runs.sound hrun).step_outcome hallows hstep
      have hcurrent := current_of_handed hallows houtcome hbefore hafter
      have hsound := (Runs.sound hrun).outcome hallows houtcome
      refine ⟨hsound.known_of_current hcurrent, ?_⟩
      rintro ⟨gone, hgone, hstale⟩
      rw [List.mem_singleton.1 hgone] at hstale
      exact hstale
  | cons u newer ih =>
    cases hrun with
    | next hrun hallows hstep =>
      obtain ⟨hknown, hstays⟩ := ih hrun hincrease.2
      have hmoves := ((Runs.sound hrun).step_outcome hallows hstep).moves
      refine ⟨known_next hknown hmoves, ?_⟩
      rintro ⟨gone, hgone, hstale⟩
      rcases List.mem_cons.1 hgone with rfl | hearlier
      · exact hstale
      · exact stale_next hknown hmoves hincrease (hstays ⟨gone, hearlier, hstale⟩)

theorem Runs.pins (hrun : Runs registry (newer ++ t :: older) world) {owner : WritePublication}
    {session : WriteSession} (hpins : owner.Pins session t.after)
    (hends : ∀ u ∈ newer, ¬owner.Ends u)
    (hclock : ∀ u ∈ newer, ∀ nowMs, u.label.clock = some nowMs → nowMs < u64Max) :
    owner.Pins session world := by
  refine Run.since hrun hpins ?_
  intro u hu past hpast hpins hstep
  obtain ⟨older', hrun', hallows, -⟩ := Run.of_mem hrun (List.mem_append_left _ hu)
  have hsound := Runs.sound hpast
  exact hsound.pins_step hallows (hsound.step_outcome hallows hstep) (hclock u hu)
    (hends u hu) hpins

end SessionWorld

/-- The session of a submitted publication outlives every call before the last clock
value, until the publication's own sync or commit succeeds or its epoch is removed.  An
owner whose session was gone at some time since it was handed out does nothing but the
expiry sweep of its call. -/
theorem submitted_publication_keeps_its_session {registry : SessionRegistry}
    {past : List (Transition SessionWorld RegistryCall)} {world : SessionWorld}
    (hrun : SessionWorld.Runs registry past world) (hincrease : EpochsIncrease past) :
    (∀ newer t older owner nowMs, past = newer ++ t :: older →
      t.label = .markSubmitted owner nowMs → owner.submitted = false →
      t.after.Holds (.publication { owner with submitted := true }) →
      (∀ u ∈ newer, ¬owner.Ends u) →
      (∀ u ∈ newer, ∀ nowMs, u.label.clock = some nowMs → nowMs < u64Max) →
      ∃ session, owner.Pins session t.after ∧ owner.Pins session world) ∧
    ∀ newer t older owner, past = newer ++ t :: older →
      ¬t.before.Holds owner → t.after.Holds owner →
      (∃ gone ∈ visited newer world, ¬owner.Current gone.state.book) →
      ∀ call world', call.owner? = some owner → world.Allows call →
        SessionWorld.Step registry world call world' →
        call.Sweeps world.state.book world'.state.book := by
  constructor
  · rintro newer ⟨before, label, after⟩ older owner nowMs rfl hlabel hunsubmitted hsucceeded
      hends hclock
    obtain ⟨older', hrun', hallows, hstep⟩ :=
      Run.of_mem hrun (List.mem_append_right _ List.mem_cons_self)
    simp only at hlabel hallows hstep
    subst hlabel
    have hsound := sound hrun'
    obtain ⟨session, hpins⟩ := hsound.pins_of_submitted hallows
      (hsound.step_outcome hallows hstep) hunsubmitted hsucceeded
    exact ⟨session, hpins, pins hrun hpins hends hclock⟩
  · rintro newer t older owner rfl hbefore hafter hgone call world' howner hallows hstep
    have hstale := (stale hrun hincrease hbefore hafter).2 hgone
    obtain ⟨mid, hsweeps, heffect⟩ := (hrun.sound.step_outcome hallows hstep).moves
    have hmid : ¬owner.Current mid := fun hcurrent => hstale (hcurrent.of_sweeps hsweeps)
    rw [heffect.inert howner hmid]
    exact hsweeps

namespace SessionWorld

def lookedUp : SessionWorld := submitted.next smallRegistry (.getSession 10 5000)

def swept : SessionWorld := submitted.next smallRegistry (.getSession 10 u64Max)

/-- The file is opened again after the lease of the frozen session ran out. -/
def reopened : SessionWorld :=
  publishing.next smallRegistry (.beginSession (openSmallFile 1) 150)

def revalidated : SessionWorld := reopened.next smallRegistry (.revalidate frozen 300)

end SessionWorld

section

open SessionWorld

theorem submitted_publication_keeps_its_session_looked_up :
    ∃ session, frozen.Pins session submitted ∧ frozen.Pins session lookedUp := by
  have hrun : Runs smallRegistry
      (⟨submitted, .getSession 10 5000, lookedUp⟩ :: submittedPast) lookedUp :=
    .next submitted_runs (by decide) (step_next rfl)
  have hincrease : EpochsIncrease
      (⟨submitted, .getSession 10 5000, lookedUp⟩ :: submittedPast) := by decide +kernel
  refine (submitted_publication_keeps_its_session hrun hincrease).1
    [⟨submitted, .getSession 10 5000, lookedUp⟩] ⟨publishing, .markSubmitted frozen 7, submitted⟩
    publishingPast frozen 7 rfl rfl rfl (by decide) ?_ ?_
  · intro u hu
    rw [List.mem_singleton.1 hu]
    exact id
  · intro u hu nowMs hnow
    rw [List.mem_singleton.1 hu] at hnow
    cases hnow
    decide

/-- At the last clock value a sweep retires the session of a submitted publication.  And
the call of an owner whose session was replaced retires the replacement once it has
expired. -/
theorem submitted_session_is_swept_and_replacement_retired :
    (∃ newer t older owner nowMs, Runs smallRegistry (newer ++ t :: older) swept ∧
      EpochsIncrease (newer ++ t :: older) ∧ t.label = .markSubmitted owner nowMs ∧
      owner.submitted = false ∧
      t.after.Holds (.publication { owner with submitted := true }) ∧
      (∀ u ∈ newer, ¬owner.Ends u) ∧
      swept.state.entries.lookup owner.session.inodeId = none) ∧
    ∃ newer t older owner, Runs smallRegistry (newer ++ t :: older) reopened ∧
      EpochsIncrease (newer ++ t :: older) ∧
      ¬t.before.Holds (.publication owner) ∧ t.after.Holds (.publication owner) ∧
      ¬(RegistryOwner.publication owner).Current reopened.state.book ∧
      reopened.Allows (.revalidate owner 300) ∧
      Step smallRegistry reopened (.revalidate owner 300) revalidated ∧
      reopened.state.entries.lookup owner.session.inodeId ≠ none ∧
      revalidated.state.entries.lookup owner.session.inodeId = none := by
  constructor
  · refine ⟨[⟨submitted, .getSession 10 u64Max, swept⟩],
      ⟨publishing, .markSubmitted frozen 7, submitted⟩, publishingPast, frozen, 7,
      .next submitted_runs (by decide) (step_next rfl), by decide +kernel, rfl, rfl,
      by decide, ?_, rfl⟩
    intro u hu
    rw [List.mem_singleton.1 hu]
    exact id
  · refine ⟨[⟨publishing, .beginSession (openSmallFile 1) 150, reopened⟩],
      ⟨opened, .beginPublication 10 1 6, publishing⟩, publishingPast.tail, frozen,
      .next publishing_runs (by decide) (step_next rfl), by decide +kernel, by decide,
      by decide, ?_, by decide, step_next rfl, by decide, rfl⟩
    rintro ⟨session, hsession, -⟩
    cases hsession

end

end Beryl
