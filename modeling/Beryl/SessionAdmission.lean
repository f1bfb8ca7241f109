import Beryl.SessionOwners

/-!
# Openings that are given up

`WriteOpening::activate` consumes the opening, so a refusal also drops it.  The drop removes the
entry of an opening that is still armed; `activate` disarms it where the registry answers that the
opening is expired or not current.  It answers "not current" for one opening that is still there:
its file has another epoch or another layout.  That entry stays until it expires.
-/

namespace Beryl

open Transaction History SessionWorld

open SessionRegistryState.Sound (exactOpening_eq_some)

def WriteOpening.activate (registry : SessionRegistry) (owner : WriteOpening)
    (returnedLeaseEpoch : LeaseEpoch) (file : FileData) (tail : Option LocatedBlock)
    (nowMs : ℕ) : Registry WriteOpeningError WriteSession := fun state =>
  match activateOpening registry owner.inodeId owner.openingId returnedLeaseEpoch nowMs file tail
      state with
  | (.ok session, state') => (.ok session, state')
  | (.error (.panicked message), state') => (.error (.panicked message), state')
  | (.error (.refused error), state') =>
    (.error (.refused error), if error.armed then
      ((cancelOpening owner.inodeId owner.openingId : Registry WriteOpeningError Unit) state').2
      else state')

namespace WriteOpening

/-- Opening ids are given once: the entry with the id is that of the opening. -/
def Placed (owner : WriteOpening) (state : SessionRegistryState) : Prop :=
  ∀ inodeId opening, state.entries.lookup inodeId = some (.opening opening) →
    opening.openingId = owner.openingId → inodeId = owner.inodeId

def Gone (owner : WriteOpening) (state : SessionRegistryState) : Prop :=
  ∀ inodeId opening, state.entries.lookup inodeId = some (.opening opening) →
    opening.openingId ≠ owner.openingId

/-- The opening is current, but the file that Raft returned with its epoch is not as expected. -/
def Stranded (owner : WriteOpening) (state : SessionRegistryState)
    (returnedLeaseEpoch : LeaseEpoch) (file : FileData) (nowMs : ℕ) : Prop :=
  ∃ opening, exactOpening state owner.inodeId owner.openingId = some opening ∧
    nowMs < opening.expiresAtMs ∧ opening.proposedLeaseEpoch = returnedLeaseEpoch ∧
    (file.leaseEpoch ≠ returnedLeaseEpoch ∨ file.layout ≠ opening.layout)

variable {registry : SessionRegistry} {state state' : SessionRegistryState}
  {returnedLeaseEpoch : LeaseEpoch} {file : FileData} {tail : Option LocatedBlock} {nowMs : ℕ}
  {owner : WriteOpening}

theorem placed_of_moves {call : RegistryCall} (hplaced : owner.Placed state)
    (hknown : owner.openingId < state.nextOpeningId)
    (hmoves : call.Moves registry state.book state'.book) : owner.Placed state' := by
  obtain ⟨mid, hsweeps, heffect⟩ := hmoves
  intro inodeId opening hopening hid
  rcases heffect.opening_origin hopening with hold | ⟨hnew, -⟩
  · exact hplaced inodeId opening (hsweeps.lookup_of_some hold) hid
  · rw [hid, hsweeps.nextOpeningId] at hnew
    exact absurd hnew hknown.ne

theorem placed_of_handed {call : RegistryCall} (h : state.Sound registry)
    (hmoves : call.Moves registry state.book state'.book)
    (hhanded : (RegistryOwner.opening owner).Handed call state.book state'.book) :
    owner.Placed state' := by
  obtain ⟨mid, hsweeps, heffect⟩ := hmoves
  obtain ⟨hfresh, -, found, hfound, hfoundId⟩ := hhanded
  have hborn : ∀ inodeId opening, state'.entries.lookup inodeId = some (.opening opening) →
      opening.openingId = owner.openingId →
      ∃ input nowMs, call = .beginSession input nowMs ∧ inodeId = input.inodeId := by
    intro inodeId opening hopening hid
    rcases heffect.opening_origin hopening with hold | ⟨-, hborn⟩
    · exact absurd (hid.trans hfresh) (h.coherent.opening (hsweeps.lookup_of_some hold)).ne
    · exact hborn
  intro inodeId opening hopening hid
  obtain ⟨input, nowMs, hcall, rfl⟩ := hborn _ _ hopening hid
  obtain ⟨_, _, hcall', hinode⟩ := hborn _ _ hfound hfoundId
  cases hcall.symm.trans hcall'
  exact hinode.symm

/-- Opening ids are given once, so every opening that is still held is placed. -/
theorem placed_of_runs {past : List (Transition SessionWorld RegistryCall)} {world : SessionWorld}
    (hrun : Runs registry past world) (hheld : world.Holds (.opening owner)) :
    owner.openingId < world.state.nextOpeningId ∧ owner.Placed world.state := by
  induction hrun with
  | start => cases hheld
  | next hrun hallows hstep ih =>
    have hsound := Runs.sound hrun
    have houtcome := hsound.step_outcome hallows hstep
    have hmoves := houtcome.moves
    cases houtcome with
    | answered hreached | refused hrefused =>
      have hold := ih (holds_afterCall hheld)
      exact ⟨hold.1.trans_le hmoves.nextOpeningId_le, placed_of_moves hold.2 hold.1 hmoves⟩
    | handed hreached hhanded =>
      rcases holds_receive hheld with rfl | hheld
      · rw [receive_state, afterCall_state] at *
        refine ⟨?_, placed_of_handed hsound.state hmoves hhanded⟩
        rw [hhanded.1]
        exact (Nat.lt_succ_self _).trans_eq hhanded.2.1.symm
      · have hold := ih (holds_afterCall hheld)
        exact ⟨hold.1.trans_le hmoves.nextOpeningId_le, placed_of_moves hold.2 hold.1 hmoves⟩

theorem gone_of_exactOpening (hplaced : owner.Placed state)
    (hkept : ∀ inodeId entry, state'.entries.lookup inodeId = some entry →
      state.entries.lookup inodeId = some entry)
    (hnone : exactOpening state' owner.inodeId owner.openingId = none) : owner.Gone state' := by
  intro inodeId opening hopening hid
  have hinode := hplaced inodeId opening (hkept _ _ hopening) hid
  rw [hinode] at hopening
  rw [exactOpening_eq_some.2 ⟨hopening, hid⟩] at hnone
  cases hnone

theorem activateOpening_refusal (h : state.Sound registry) :
    Ensures (activateOpening registry owner.inodeId owner.openingId returnedLeaseEpoch nowMs file
        tail) state (fun _ _ => True) (fun exit state' => ∀ error, exit = .refused error →
        (error.armed = true ∧ state' = state) ∨
        (error.armed = false ∧ exactOpening state' owner.inodeId owner.openingId = none ∧
          SessionBook.Swept nowMs state.book state'.book ∧ state'.Sound registry) ∨
        owner.Stranded state returnedLeaseEpoch file nowMs) := by
  unfold activateOpening
  apply ensures_read
  apply ensures_bind
  apply ensures_okOr
  · rintro hnone _ ⟨⟩
    exact .inr (.inl ⟨rfl, hnone, SessionBook.Swept.refl nowMs state.book, h⟩)
  · intro opening hexact
    obtain ⟨hopening, hid⟩ := exactOpening_eq_some.1 hexact
    by_cases hexpired : opening.expiresAtMs ≤ nowMs
    · rw [if_pos hexpired]
      obtain ⟨_, mid, hrun, hmid, hswept, hlive⟩ :=
        h.retireExpiredEntryForInode_run (E := WriteOpeningError) owner.inodeId nowMs
      apply ensures_bind_of_ok hrun
      apply ensures_fail
      rintro _ ⟨⟩
      refine .inr (.inl ⟨rfl, ?_, hswept, hmid⟩)
      cases hfound : exactOpening mid owner.inodeId owner.openingId with
      | none => rfl
      | some found =>
        have hthere := (exactOpening_eq_some.1 hfound).1
        have hbefore := hswept.lookup_of_some hthere
        cases hopening.symm.trans hbefore
        exact absurd hexpired (not_le.2 (hlive _ hthere))
    · rw [if_neg hexpired]
      apply ensures_bind
      apply ensures_failIf
      · rintro _ _ ⟨⟩
        exact .inl ⟨rfl, rfl⟩
      · intro hepoch
        apply ensures_bind
        apply ensures_failIf
        · rintro hfile _ _
          exact .inr (.inr ⟨opening, hexact, not_le.1 hexpired, not_not.1 hepoch, hfile⟩)
        · intro hfile
          apply ensures_bind
          apply ensures_failIf
          · rintro _ _ ⟨⟩
            exact .inl ⟨rfl, rfl⟩
          · intro _
            refine ensures_bind (ensures_update (ensures_bind (ensures_current
              (ensures_bind (ensures_failIf nofun fun _ => ?_)))))
            refine ensures_bind (ensures_update (ensures_bind (ensures_bind (ensures_current
              (ensures_bind (ensures_failIf nofun fun _ => ?_))))))
            exact ensures_update (ensures_bind (ensures_bind (ensures_current
              (ensures_failIf nofun fun _ => trivial))))

theorem cancelOpening_gone (h : state.Sound registry) (hplaced : owner.Placed state) :
    ∃ state', (cancelOpening owner.inodeId owner.openingId : Registry WriteOpeningError Unit)
      state = (.ok (), state') ∧ owner.Gone state' ∧ state'.Indexed := by
  unfold cancelOpening
  rw [current_bind]
  cases hexact : exactOpening state owner.inodeId owner.openingId with
  | none => exact ⟨state, rfl, gone_of_exactOpening hplaced (fun _ _ h => h) hexact, h.indexed⟩
  | some opening =>
    obtain ⟨state', hrun, hsound, hbook⟩ :=
      h.removeEntry_run (E := WriteOpeningError) (exactOpening_eq_some.1 hexact).1
    refine ⟨state', bind_of_ok hrun, ?_, hsound.indexed⟩
    have hentries : ∀ inodeId, state'.entries.lookup inodeId =
        if inodeId = owner.inodeId then none else state.entries.lookup inodeId := by
      intro inodeId
      change state'.book.entries.lookup inodeId = _
      rw [hbook]
      exact SessionBook.lookup_eraseEntry state.book owner.inodeId inodeId
    intro inodeId found hfound hid
    rw [hentries] at hfound
    split at hfound
    · cases hfound
    next hother => exact hother (hplaced inodeId found hfound hid)

theorem activate_stranded (h : owner.Stranded state returnedLeaseEpoch file nowMs) :
    owner.activate registry returnedLeaseEpoch file tail nowMs state =
      (.error (.refused .notCurrent), state) := by
  obtain ⟨opening, hexact, hlive, hepoch, hfile⟩ := h
  have hrun : activateOpening registry owner.inodeId owner.openingId returnedLeaseEpoch nowMs file
      tail state = (.error (.refused .notCurrent), state) := by
    unfold activateOpening
    rw [current_bind, hexact]
    change (if opening.expiresAtMs ≤ nowMs then _ else _ : Registry _ _) state = _
    rw [if_neg (not_le.2 hlive)]
    simp [Registry.refuseIf, failIf, hepoch, hfile, bind, fail, pure]
  unfold WriteOpening.activate
  rw [hrun]
  rfl

/-- After a refused activation and the drop of the opening its entry is gone and every counter and
index counts the entries that are left, exactly if the activation does not strand the opening. -/
theorem refused_activation_frees_opening (h : state.Sound registry) (hplaced : owner.Placed state) :
    (∀ exit state', owner.activate registry returnedLeaseEpoch file tail nowMs state =
        (.error exit, state') → owner.Gone state' ∧ state'.Indexed) ↔
      ¬owner.Stranded state returnedLeaseEpoch file nowMs := by
  constructor
  · intro hfrees hstranded
    have hgone := (hfrees _ _ (activate_stranded hstranded)).1
    obtain ⟨opening, hexact, _⟩ := hstranded
    obtain ⟨hopening, hid⟩ := exactOpening_eq_some.1 hexact
    exact hgone _ opening hopening hid
  · intro hkept exit state' hrun
    have hsettles := h.activateOpening_settles owner returnedLeaseEpoch file tail nowMs
    unfold WriteOpening.activate at hrun
    split at hrun
    · cases hrun
    next message mid hmid =>
      obtain ⟨⟨_, hexit⟩, _⟩ := Ensures.of_error hsettles hmid
      cases hexit
    next error mid hmid =>
      cases hrun
      rcases Ensures.of_error (activateOpening_refusal h) hmid error rfl with
        ⟨harmed, rfl⟩ | ⟨hdisarmed, hnone, hswept, hsound⟩ | hstranded
      · obtain ⟨after, hcancel, hgone, hindexed⟩ := cancelOpening_gone h hplaced
        rw [if_pos harmed, hcancel]
        exact ⟨hgone, hindexed⟩
      · rw [if_neg (by simp [hdisarmed])]
        refine ⟨gone_of_exactOpening hplaced ?_ hnone, hsound.indexed⟩
        intro inodeId entry hentry
        exact hswept.lookup_of_some hentry
      · exact absurd hstranded hkept

/-- Raft returned another epoch than the opening of file 10 proposed. -/
theorem refused_activation_frees_opening_fenced : ∃ state',
    (⟨10, 1, 1⟩ : WriteOpening).activate smallRegistry 2 (smallFile 2) none 5
        SessionWorld.opening.state = (.error (.refused (.leaseEpochMismatch 1 2)), state') ∧
      (⟨10, 1, 1⟩ : WriteOpening).Gone state' ∧ state'.Indexed := by
  have hrun : SessionWorld.Runs smallRegistry _ opening := .next .start (by decide) (step_next rfl)
  have hplaced : (⟨10, 1, 1⟩ : WriteOpening).Placed opening.state :=
    (placed_of_runs hrun (.head _)).2
  have hkept : ¬(⟨10, 1, 1⟩ : WriteOpening).Stranded opening.state 2 (smallFile 2) 5 := by
    rintro ⟨opening, hexact, _, hepoch, _⟩
    cases hexact
    cases hepoch
  have hrefused : (⟨10, 1, 1⟩ : WriteOpening).activate smallRegistry 2 (smallFile 2) none 5
      opening.state = (.error (.refused (.leaseEpochMismatch 1 2)), _) := rfl
  exact ⟨_, hrefused,
    (refused_activation_frees_opening hrun.sound.state hplaced).2 hkept _ _ hrefused⟩

/-- The file of the opening has another epoch: the opening stays, and nothing will remove it before
it expires. -/
theorem stranded_opening_stays :
    ((⟨10, 1, 1⟩ : WriteOpening).activate smallRegistry 1 (smallFile 2) none 5
        SessionWorld.opening.state).1 = .error (.refused .notCurrent) ∧
      ∃ opening, exactOpening ((⟨10, 1, 1⟩ : WriteOpening).activate smallRegistry 1 (smallFile 2)
        none 5 SessionWorld.opening.state).2 10 1 = some opening ∧ 5 < opening.expiresAtMs :=
  ⟨rfl, _, rfl, by decide⟩

end WriteOpening

end Beryl
