import Beryl.PublicationRefinement
import Beryl.SessionSteps
import Beryl.History

/-!
# Runs of the registry with the owners it hands out

A world is the registry together with the owners that are alive.  A method of an
owner may be called while the owner is alive; whether the owner survives the call is
what its `armed` flag says.  Owners are dropped at any time and in any order, and
every call brings its own clock value.
-/

namespace Beryl

open Transaction Registry History List

structure SessionWorld where
  state : SessionRegistryState
  openings : List WriteOpening
  createOpenings : List CreateOpening
  reservations : List WriteTargetReservation
  publications : List WritePublication

namespace SessionWorld

def initial : SessionWorld := ⟨.default, [], [], [], []⟩

def Holds (world : SessionWorld) : RegistryOwner → Prop
  | .opening owner => owner ∈ world.openings
  | .createOpening owner => owner ∈ world.createOpenings
  | .reservation owner => owner ∈ world.reservations
  | .publication owner => owner ∈ world.publications

instance (world : SessionWorld) (owner : RegistryOwner) : Decidable (world.Holds owner) := by
  cases owner <;> exact inferInstanceAs (Decidable (_ ∈ _))

def release (world : SessionWorld) : RegistryOwner → SessionWorld
  | .opening owner => { world with openings := world.openings.erase owner }
  | .createOpening owner => { world with createOpenings := world.createOpenings.erase owner }
  | .reservation owner => { world with reservations := world.reservations.erase owner }
  | .publication owner => { world with publications := world.publications.erase owner }

def receive (world : SessionWorld) : RegistryOwner → SessionWorld
  | .opening owner => { world with openings := owner :: world.openings }
  | .createOpening owner => { world with createOpenings := owner :: world.createOpenings }
  | .reservation owner => { world with reservations := owner :: world.reservations }
  | .publication owner => { world with publications := owner :: world.publications }

end SessionWorld

/-! ## One call -/

/-- A method reduced to the owner in its answer and to whether a refusal leaves the
calling owner armed. -/
def Registry.answering {E α : Type} (owner : α → Option RegistryOwner) (armed : E → Bool)
    (x : Registry E α) : Registry Bool (Option RegistryOwner) := fun state =>
  match x state with
  | (.ok value, state') => (.ok (owner value), state')
  | (.error (.refused error), state') => (.error (.refused (armed error)), state')
  | (.error (.panicked message), state') => (.error (.panicked message), state')

def BeginCreateSession.owner? : BeginCreateSession → Option RegistryOwner
  | .replay _ => none
  | .reserved opening => some (.createOpening opening)

def BeginAllocateBlock.owner? : BeginAllocateBlock → Option RegistryOwner
  | .replay _ => none
  | .reserved reservation => some (.reservation reservation)

/-- `WriteOpening::activate` disarms its owner also when the opening is gone. -/
def WriteOpeningError.armed : WriteOpeningError → Bool
  | .notCurrent => false
  | .expired => false
  | .targetLimit => true
  | .leaseEpochMismatch _ _ => true

def dropPublication (owner : WritePublication) : Registry Bool Unit :=
  if owner.submitted then pure ()
  else cancelPublication owner.session.inodeId owner.session.leaseEpoch owner.publicationId

/-- The method behind a call.  `revalidate` and `mark_submitted` borrow their owner, so
they hand it back. -/
def registryMethod (registry : SessionRegistry) :
    RegistryCall → Registry Bool (Option RegistryOwner)
  | .beginSession input nowMs =>
    answering (fun owner => some (.opening owner)) (fun _ => false)
      (beginSessionAt registry input nowMs)
  | .beginCreateSession input nowMs =>
    answering BeginCreateSession.owner? (fun _ => false)
      (beginCreateSessionAt registry input nowMs)
  | .activateOpening owner returnedLeaseEpoch file tail nowMs =>
    answering (fun _ => none) WriteOpeningError.armed
      (activateOpening registry owner.inodeId owner.openingId returnedLeaseEpoch nowMs file tail)
  | .activateCreateOpening owner inodeId leaseEpoch expiresAtMs layout generation nowMs =>
    answering (fun _ => none) (fun _ => true)
      (activateCreateOpening owner.operationId owner.openingId inodeId leaseEpoch
        expiresAtMs layout generation nowMs)
  | .dropOpening owner =>
    answering (fun _ => none) id (cancelOpening owner.inodeId owner.openingId)
  | .dropCreateOpening owner =>
    answering (fun _ => none) id (cancelCreateOpening owner.operationId owner.openingId)
  | .beginAllocateBlock inodeId leaseEpoch previousBlockId nowMs =>
    answering BeginAllocateBlock.owner? (fun _ => false)
      (beginAllocateBlock registry inodeId leaseEpoch previousBlockId nowMs)
  | .completeTarget owner target nowMs =>
    answering (fun _ => none) (fun _ => false)
      (completeWriteTarget owner.inodeId owner.leaseEpoch owner.pending target nowMs)
  | .dropReservation owner =>
    answering (fun _ => none) id
      (cancelWriteTargetLocked owner.inodeId owner.leaseEpoch owner.pending)
  | .beginPublication inodeId leaseEpoch nowMs =>
    answering (fun owner => some (.publication owner)) (fun _ => false)
      (beginPublication inodeId leaseEpoch nowMs)
  | .revalidate owner nowMs =>
    answering (fun _ => some (.publication owner)) (fun _ => true)
      (revalidatePublication owner.session.inodeId owner.session.leaseEpoch
        owner.publicationId nowMs)
  | .markSubmitted owner nowMs =>
    answering (fun owner => some (.publication owner)) (fun _ => true)
      (markSubmitted owner nowMs)
  | .completeSync owner generation fileSize nowMs =>
    answering (fun _ => none) (fun _ => true)
      (completeSyncPublication owner.session.inodeId owner.session.leaseEpoch
        owner.publicationId generation fileSize nowMs)
  | .completeCommit owner =>
    answering (fun _ => none) id
      (completeCommitPublication owner.session.inodeId owner.session.leaseEpoch owner.publicationId)
  | .dropPublication owner => answering (fun _ => none) id (dropPublication owner)
  | .getSession inodeId nowMs => answering (fun _ => none) id (getSession inodeId nowMs)
  | .removeSessionIfEpoch inodeId leaseEpoch =>
    answering (fun _ => none) id (removeSessionIfEpoch inodeId leaseEpoch)
  | .validateSession inodeId leaseEpoch nowMs =>
    answering (fun _ => none) (fun _ => false) (validateSession inodeId leaseEpoch nowMs)
  | .renewSession inodeId leaseEpoch clientId nowMs =>
    answering (fun _ => none) (fun _ => false)
      (renewSessionAt registry inodeId leaseEpoch clientId nowMs)
  | .retireExpiredBatch nowMs => answering (fun _ => none) id (retireExpiredBatch nowMs)
  | .hasActiveWriteUnder inodeId nowMs =>
    answering (fun _ => none) id (hasActiveWriteUnderAt inodeId nowMs)

namespace SessionWorld

def afterCall (world : SessionWorld) (call : RegistryCall) (armed : Bool)
    (state : SessionRegistryState) : SessionWorld :=
  let world := { world with state := state }
  match call.owner? with
  | some owner => if armed then world else world.release owner
  | none => world

def perform (registry : SessionRegistry) (world : SessionWorld) (call : RegistryCall) :
    Except String SessionWorld :=
  match registryMethod registry call world.state with
  | (.ok (some owner), state) => .ok ((world.afterCall call false state).receive owner)
  | (.ok none, state) => .ok (world.afterCall call false state)
  | (.error (.refused armed), state) => .ok (world.afterCall call armed state)
  | (.error (.panicked message), _) => .error message

def Allows (world : SessionWorld) (call : RegistryCall) : Prop :=
  ∀ owner, call.owner? = some owner → world.Holds owner

def Step (registry : SessionRegistry) (world : SessionWorld) (call : RegistryCall)
    (world' : SessionWorld) : Prop :=
  world.perform registry call = .ok world'

end SessionWorld

/-! ## Every call refines its effects -/

def RegistryOwner.Handed (call : RegistryCall) (before book : SessionBook) :
    RegistryOwner → Prop
  | .opening owner => owner.openingId = before.nextOpeningId ∧
      book.nextOpeningId = before.nextOpeningId + 1 ∧
      (RegistryOwner.opening owner).Current book
  | .createOpening owner => owner.openingId = before.nextOpeningId ∧
      book.nextOpeningId = before.nextOpeningId + 1 ∧
      (RegistryOwner.createOpening owner).Current book
  | .reservation owner => (RegistryOwner.reservation owner).Current book
  | .publication owner =>
    match call with
    | .revalidate caller _ => owner = caller
    | .markSubmitted caller _ => owner = { caller with submitted := true } ∧
        (caller.submitted = false → ∃ session,
          book.entries.lookup caller.session.inodeId = some (.active session) ∧
          session.leaseEpoch = caller.session.leaseEpoch ∧
          session.activePublication = some caller.publicationId ∧
          session.publicationSubmitted = true) ∧
        ∀ session, book.entries.lookup caller.session.inodeId = some (.active session) →
          session.activePublication = some caller.publicationId →
          session.publicationSubmitted = true
    | _ => owner.submitted = false ∧ owner.publicationId = before.nextPublicationId ∧
        book.nextPublicationId = before.nextPublicationId + 1 ∧
        book.entries.lookup owner.session.inodeId = some (.active owner.session) ∧
        owner.session.publicationSubmitted = false

theorem settles_answering {E α : Type} {registry : SessionRegistry} {call : RegistryCall}
    {start : SessionBook} {x : Registry E α} {state : SessionRegistryState}
    {post : α → SessionBook → Prop} {owner? : α → Option RegistryOwner} {armed : E → Bool}
    {post' : Option RegistryOwner → SessionBook → Prop}
    (h : Settles registry call start x state post)
    (himp : ∀ value book, post value book → post' (owner? value) book) :
    Settles registry call start (answering owner? armed x) state post' := by
  unfold Settles Ensures at h ⊢
  unfold answering
  rcases hx : x state with ⟨exit | value, state'⟩
  · rw [hx] at h
    obtain ⟨⟨error, rfl⟩, hrefused⟩ := h
    exact ⟨⟨_, rfl⟩, hrefused⟩
  · rw [hx] at h
    exact ⟨h.1, himp value _ h.2⟩

theorem settles_silent {E α : Type} {registry : SessionRegistry} {call : RegistryCall}
    {start : SessionBook} {x : Registry E α} {state : SessionRegistryState}
    {post : α → SessionBook → Prop} {armed : E → Bool} {P : RegistryOwner → SessionBook → Prop}
    (h : Settles registry call start x state post) :
    Settles registry call start (answering (fun _ => none) armed x) state
      (fun answer book => ∀ owner, answer = some owner → P owner book) :=
  settles_answering h fun _ _ _ => nofun

structure SessionWorld.Sound (registry : SessionRegistry) (world : SessionWorld) : Prop where
  state : world.state.Sound registry
  distinct : (world.publications.map WritePublication.publicationId).Nodup
  issued : ∀ owner ∈ world.publications, owner.publicationId < world.state.nextPublicationId
  agrees : ∀ owner ∈ world.publications, ∀ session,
    world.state.entries.lookup owner.session.inodeId = some (.active session) →
      session.activePublication = some owner.publicationId →
        session.publicationSubmitted = owner.submitted

theorem SessionWorld.Sound.method_settles {registry : SessionRegistry} {world : SessionWorld}
    (h : world.Sound registry) {call : RegistryCall} (hallows : world.Allows call) :
    Settles registry call world.state.book (registryMethod registry call) world.state
      (fun answer book => ∀ owner, answer = some owner →
        owner.Handed call world.state.book book) := by
  have hstate := h.state
  cases call with
  | beginSession =>
    apply settles_answering (hstate.beginSessionAt_settles ..)
    rintro owner book hpost _ ⟨⟩
    exact hpost
  | beginCreateSession =>
    apply settles_answering (hstate.beginCreateSessionAt_settles ..)
    rintro (replay | opening) book hpost _ ⟨⟩
    exact hpost opening rfl
  | activateOpening => exact settles_silent (hstate.activateOpening_settles ..)
  | activateCreateOpening => exact settles_silent (hstate.activateCreateOpening_settles ..)
  | dropOpening owner => exact settles_silent (hstate.cancelOpening_settles owner)
  | dropCreateOpening owner => exact settles_silent (hstate.cancelCreateOpening_settles owner)
  | beginAllocateBlock =>
    apply settles_answering (hstate.beginAllocateBlock_settles ..)
    rintro (target | reservation) book hpost _ ⟨⟩
    exact hpost reservation rfl
  | completeTarget => exact settles_silent (hstate.completeWriteTarget_settles ..)
  | dropReservation owner => exact settles_silent (hstate.cancelWriteTarget_settles owner)
  | beginPublication =>
    apply settles_answering (hstate.beginPublication_settles ..)
    rintro owner book hpost _ ⟨⟩
    exact hpost.2
  | revalidate =>
    apply settles_answering (hstate.revalidatePublication_settles ..)
    rintro session book hpost _ ⟨⟩
    rfl
  | markSubmitted owner nowMs =>
    have hheld : owner ∈ world.publications := hallows _ rfl
    apply settles_answering (hstate.markSubmitted_settles owner nowMs (h.agrees owner hheld))
    rintro owner' book hpost _ ⟨⟩
    exact hpost
  | completeSync => exact settles_silent (hstate.completeSyncPublication_settles ..)
  | completeCommit owner => exact settles_silent (hstate.completeCommitPublication_settles owner)
  | dropPublication owner =>
    have hheld : owner ∈ world.publications := hallows _ rfl
    simp only [registryMethod, dropPublication]
    cases hsubmitted : owner.submitted with
    | true =>
      have hnothing : Settles registry (.dropPublication owner) world.state.book
          (pure () : Registry Bool Unit) world.state (fun _ _ => True) :=
        settles_pure (SessionRefused.here hstate).reached trivial
      rw [if_pos rfl]
      exact settles_silent hnothing
    | false =>
      rw [if_neg Bool.false_ne_true]
      exact settles_silent (hstate.dropPublication_settles owner hsubmitted (h.agrees owner hheld))
  | getSession => exact settles_silent (hstate.getSession_settles ..)
  | removeSessionIfEpoch => exact settles_silent (hstate.removeSessionIfEpoch_settles ..)
  | validateSession => exact settles_silent (hstate.validateSession_settles ..)
  | renewSession => exact settles_silent (hstate.renewSessionAt_settles ..)
  | retireExpiredBatch nowMs => exact settles_silent (hstate.retireExpiredBatch_settles nowMs)
  | hasActiveWriteUnder => exact settles_silent (hstate.hasActiveWriteUnderAt_settles ..)

/-! ## Every call keeps a world sound -/

/-- How a call ends: with an owner, without one, or with a refusal. -/
inductive SessionOutcome (registry : SessionRegistry) (world : SessionWorld)
    (call : RegistryCall) : SessionWorld → Prop
  | handed {owner state} (hreached : SessionReached registry call world.state.book state)
      (hhanded : owner.Handed call world.state.book state.book) :
      SessionOutcome registry world call ((world.afterCall call false state).receive owner)
  | answered {state} (hreached : SessionReached registry call world.state.book state) :
      SessionOutcome registry world call (world.afterCall call false state)
  | refused {armed state} (hrefused : SessionRefused registry call world.state.book state) :
      SessionOutcome registry world call (world.afterCall call armed state)

namespace SessionWorld

variable {registry : SessionRegistry} {world world' : SessionWorld} {call : RegistryCall}

theorem Sound.perform_outcome (h : world.Sound registry) (hallows : world.Allows call) :
    ∃ world', world.perform registry call = .ok world' ∧
      SessionOutcome registry world call world' := by
  have hsettles := h.method_settles hallows
  unfold Settles Ensures at hsettles
  unfold perform
  rcases hmethod : registryMethod registry call world.state with ⟨exit | answer, state⟩
  · rw [hmethod] at hsettles
    obtain ⟨⟨armed, rfl⟩, hrefused⟩ := hsettles
    exact ⟨_, rfl, .refused hrefused⟩
  · rw [hmethod] at hsettles
    cases answer with
    | none => exact ⟨_, rfl, .answered hsettles.1⟩
    | some owner => exact ⟨_, rfl, .handed hsettles.1 (hsettles.2 owner rfl)⟩

@[simp]
theorem release_state (world : SessionWorld) (owner : RegistryOwner) :
    (world.release owner).state = world.state := by
  cases owner <;> rfl

@[simp]
theorem receive_state (world : SessionWorld) (owner : RegistryOwner) :
    (world.receive owner).state = world.state := by
  cases owner <;> rfl

@[simp]
theorem afterCall_state (world : SessionWorld) (call : RegistryCall) (armed : Bool)
    (state : SessionRegistryState) : (world.afterCall call armed state).state = state := by
  unfold afterCall
  split
  · split
    · rfl
    · exact release_state _ _
  · rfl

theorem release_publications (world : SessionWorld) (owner : RegistryOwner) :
    (world.release owner).publications.Sublist world.publications := by
  cases owner with
  | publication => exact erase_sublist
  | _ => exact List.Sublist.refl _

theorem afterCall_publications (world : SessionWorld) (call : RegistryCall) (armed : Bool)
    (state : SessionRegistryState) :
    (world.afterCall call armed state).publications.Sublist world.publications := by
  unfold afterCall
  split
  · split
    · exact List.Sublist.refl _
    · exact release_publications _ _
  · exact List.Sublist.refl _

variable {owner : WritePublication} {state : SessionRegistryState}

section

variable (h : world.Sound registry)
include h

theorem Sound.released {caller : WritePublication}
    (hcaller : caller ∈ world.publications) (howner : owner ∈ world.publications.erase caller) :
    owner.publicationId ≠ caller.publicationId := by
  have hperm := (perm_cons_erase hcaller).map WritePublication.publicationId
  have hnodup := hperm.nodup_iff.1 h.distinct
  rw [map_cons, nodup_cons] at hnodup
  intro heq
  exact hnodup.1 (heq ▸ mem_map_of_mem howner)

theorem Sound.agrees_of_moves
    (hmoves : call.Moves registry world.state.book state.book) (howner : owner ∈ world.publications)
    (hother : ∀ caller nowMs, call = .markSubmitted caller nowMs → caller.publicationId ≠
      owner.publicationId) :
    ∀ session, state.entries.lookup owner.session.inodeId = some (.active session) →
      session.activePublication = some owner.publicationId →
        session.publicationSubmitted = owner.submitted := by
  intro session' hsession' hpublication
  rcases hmoves.origin hsession' with ⟨session, hsession, hstep⟩ | ⟨mid, -, hbirth⟩
  · rcases hstep.publication hpublication with ⟨hsame, hsubmitted⟩ | hnext | hsubmit
    · rw [hsubmitted]
      exact h.agrees owner howner session hsession hsame
    · exact absurd hnext (h.issued owner howner).ne
    · obtain ⟨caller, nowMs, hcall, -, hid⟩ := hsubmit
      exact absurd hid (hother caller nowMs hcall)
  · rw [hbirth.publication] at hpublication
    cases hpublication

theorem Sound.agrees_of_refuses
    (hrefuses : call.Refuses world.state.book state.book) (howner : owner ∈ world.publications) :
    ∀ session, state.entries.lookup owner.session.inodeId = some (.active session) →
      session.activePublication = some owner.publicationId →
        session.publicationSubmitted = owner.submitted := by
  by_cases hsubmit : ∃ caller nowMs, call = .markSubmitted caller nowMs
  · obtain ⟨caller, nowMs, rfl⟩ := hsubmit
    obtain ⟨mid, hsweeps, heffect⟩ := hrefuses
    intro session hsession
    generalize hbook : state.book = book at heffect
    cases heffect
    have hentries : state.entries = mid.entries := congrArg SessionBook.entries hbook
    rw [hentries] at hsession
    exact h.agrees owner howner session (hsweeps.lookup_of_some hsession)
  · apply h.agrees_of_moves hrefuses.moves howner
    intro caller nowMs hcall
    exact absurd ⟨caller, nowMs, hcall⟩ hsubmit

theorem Sound.afterCall {armed : Bool} (hstate : state.Sound registry)
    (hmoves : call.Moves registry world.state.book state.book)
    (hagrees : ∀ owner ∈ (world.afterCall call armed state).publications, ∀ session,
      state.entries.lookup owner.session.inodeId = some (.active session) →
      session.activePublication = some owner.publicationId → session.publicationSubmitted =
      owner.submitted) : (world.afterCall call armed state).Sound registry := by
  have hsublist := world.afterCall_publications call armed state
  constructor
  · rw [afterCall_state]
    exact hstate
  · exact h.distinct.sublist (hsublist.map _)
  · intro owner howner
    rw [afterCall_state]
    exact lt_of_lt_of_le (h.issued owner (hsublist.subset howner)) hmoves.nextPublicationId_le
  · rw [afterCall_state]
    exact hagrees

theorem Sound.not_caller (hallows : world.Allows call)
    (howner : owner ∈ (world.afterCall call false state).publications) :
    ∀ caller nowMs, call = .markSubmitted caller nowMs →
      caller.publicationId ≠ owner.publicationId := by
  rintro caller nowMs rfl
  exact (h.released (hallows _ rfl) howner).symm

theorem Sound.answered (hallows : world.Allows call)
    (hreached : SessionReached registry call world.state.book state) :
    (world.afterCall call false state).Sound registry := by
  apply h.afterCall hreached.sound hreached.moves
  intro owner howner
  exact h.agrees_of_moves hreached.moves
    ((world.afterCall_publications call false state).subset howner)
    (h.not_caller hallows howner)

theorem Sound.receivePublication
    (hnew : ∀ other ∈ world.publications, other.publicationId ≠ owner.publicationId)
    (hissued : owner.publicationId < world.state.nextPublicationId)
    (hagrees : ∀ session,
      world.state.entries.lookup owner.session.inodeId = some (.active session) →
      session.activePublication = some owner.publicationId →
      session.publicationSubmitted = owner.submitted) :
    (world.receive (.publication owner)).Sound registry where
  state := h.state
  distinct := by
    refine nodup_cons.2 ⟨?_, h.distinct⟩
    intro hmem
    obtain ⟨other, hother, heq⟩ := mem_map.1 hmem
    exact hnew other hother heq
  issued := by
    intro other hother
    rcases mem_cons.1 hother with rfl | hother
    · exact hissued
    · exact h.issued other hother
  agrees := by
    intro other hother
    rcases mem_cons.1 hother with rfl | hother
    · exact hagrees
    · exact h.agrees other hother

theorem Sound.handed (hallows : world.Allows call)
    {owner : RegistryOwner} (hreached : SessionReached registry call world.state.book state)
    (hhanded : owner.Handed call world.state.book state.book) :
    ((world.afterCall call false state).receive owner).Sound registry := by
  have hafter := h.answered hallows hreached
  cases owner with
  | opening | createOpening | reservation =>
    exact ⟨hafter.state, hafter.distinct, hafter.issued, hafter.agrees⟩
  | publication owner =>
    have hle := hreached.moves.nextPublicationId_le
    simp only [RegistryOwner.Handed] at hhanded
    split at hhanded
    next caller nowMs =>
      subst hhanded
      have hcaller : owner ∈ world.publications := hallows _ rfl
      apply hafter.receivePublication
      · intro other hother
        exact h.released hcaller hother
      · rw [afterCall_state]
        exact lt_of_lt_of_le (h.issued owner hcaller) hle
      · rw [afterCall_state]
        exact h.agrees_of_moves hreached.moves hcaller nofun
    next caller nowMs =>
      obtain ⟨rfl, -, hpinned⟩ := hhanded
      have hcaller : caller ∈ world.publications := hallows _ rfl
      apply hafter.receivePublication
      · intro other hother
        have hne := h.released hcaller hother
        exact hne
      · rw [afterCall_state]
        exact lt_of_lt_of_le (h.issued caller hcaller) hle
      · rw [afterCall_state]
        exact hpinned
    next =>
      obtain ⟨hunsubmitted, hid, hnext, hsession, hunpinned⟩ := hhanded
      apply hafter.receivePublication
      · intro other hother
        have hissued := h.issued other
          ((world.afterCall_publications call false state).subset hother)
        rw [hid]
        exact hissued.ne
      · rw [afterCall_state, hid]
        exact Nat.lt_of_lt_of_eq (Nat.lt_succ_self _) hnext.symm
      · rw [afterCall_state]
        intro session hfound _
        cases hsession.symm.trans hfound
        rw [hunpinned, hunsubmitted]

theorem Sound.outcome (hallows : world.Allows call)
    (houtcome : SessionOutcome registry world call world') : world'.Sound registry := by
  cases houtcome with
  | handed hreached hhanded => exact h.handed hallows hreached hhanded
  | answered hreached => exact h.answered hallows hreached
  | refused hrefused =>
    apply h.afterCall hrefused.sound hrefused.refuses.moves
    intro owner howner
    exact h.agrees_of_refuses hrefused.refuses
      ((world.afterCall_publications call _ _).subset howner)

theorem Sound.step_outcome (hallows : world.Allows call)
    (hstep : Step registry world call world') : SessionOutcome registry world call world' := by
  obtain ⟨world'', hperform, houtcome⟩ := h.perform_outcome hallows
  cases hperform.symm.trans hstep
  exact houtcome

end

theorem initial_sound (registry : SessionRegistry) : initial.Sound registry where
  state := SessionRegistryState.default_sound registry
  distinct := nodup_nil
  issued := nofun
  agrees := nofun

def Runs (registry : SessionRegistry) (past : List (Transition SessionWorld RegistryCall))
    (world : SessionWorld) : Prop :=
  Run (Step registry) (fun _ world call => world.Allows call) initial past world

theorem Runs.sound {past : List (Transition SessionWorld RegistryCall)}
    (h : Runs registry past world) : world.Sound registry :=
  Run.invariant h (initial_sound registry) fun _ hsound hallows hstep =>
    hsound.outcome hallows (hsound.step_outcome hallows hstep)

def next (registry : SessionRegistry) (world : SessionWorld) (call : RegistryCall) :
    SessionWorld :=
  match world.perform registry call with
  | .ok world' => world'
  | .error _ => world

theorem step_next (h : (world.perform registry call).isOk = true) :
    Step registry world call (world.next registry call) := by
  unfold Step next
  cases hperform : world.perform registry call with
  | ok => rfl
  | error =>
    rw [hperform] at h
    cases h

instance (world : SessionWorld) (call : RegistryCall) : Decidable (world.Allows call) :=
  match howner : call.owner? with
  | none => isTrue fun _ heq => nomatch howner.symm.trans heq
  | some owner =>
    if hheld : world.Holds owner then
      isTrue fun _ heq => Option.some.inj (howner.symm.trans heq) ▸ hheld
    else isFalse fun hallows => hheld (hallows owner howner)

end SessionWorld

theorem SessionOutcome.moves {registry : SessionRegistry} {world world' : SessionWorld}
    {call : RegistryCall} (h : SessionOutcome registry world call world') :
    call.Moves registry world.state.book world'.state.book := by
  cases h with
  | handed hreached =>
    rw [SessionWorld.receive_state, SessionWorld.afterCall_state]
    exact hreached.moves
  | answered hreached =>
    rw [SessionWorld.afterCall_state]
    exact hreached.moves
  | refused hrefused =>
    rw [SessionWorld.afterCall_state]
    exact hrefused.refuses.moves

/-! ## The indexes of a registry along its runs -/

/-- In every run, whatever the clock values and the order of the drops: the indexes are
those computed from the sessions, no limit is exceeded, and no call that can be made
reaches an assertion. -/
theorem session_registry_keeps_its_indexes {registry : SessionRegistry}
    {past : List (Transition SessionWorld RegistryCall)} {world : SessionWorld}
    (hrun : SessionWorld.Runs registry past world) :
    world.state.Indexed ∧ world.state.book.Within registry ∧
      ∀ call, world.Allows call → ∃ world', world.perform registry call = .ok world' := by
  have hsound := hrun.sound
  refine ⟨hsound.state.indexed, hsound.state.within, ?_⟩
  intro call hallows
  obtain ⟨world', hperform, -⟩ := hsound.perform_outcome hallows
  exact ⟨world', hperform⟩

/-! ### One run of a small registry -/

def smallRegistry : SessionRegistry where
  maxSessions := 4
  maxSessionsPerClient := 2
  maxWriteTargets := 4
  maxWriteTargetsPerSession := 2
  sessionTtlMs := 100
  maxSessionsPerClient_pos := by decide
  maxSessionsPerClient_le := by decide
  maxWriteTargetsPerSession_pos := by decide
  maxWriteTargetsPerSession_le := by decide
  maxSessions_lt := by decide
  maxWriteTargets_lt := by decide

def openSmallFile (currentLeaseEpoch : LeaseEpoch) : BeginSessionInput where
  normalizedPath := "/f"
  mountId := 1
  inodeId := 10
  currentLeaseEpoch := currentLeaseEpoch
  mode := .append
  openClientId := 7
  layout := ⟨4096, 1⟩
  ancestorInodeIds := [1, 10]

def smallFile (leaseEpoch : LeaseEpoch) : FileData where
  layout := ⟨4096, 1⟩
  len := 0
  generation := 0
  blocks := []
  nextIndex := 0
  leaseEpoch := leaseEpoch
  lastCommit := none

namespace SessionWorld

def opening : SessionWorld := initial.next smallRegistry (.beginSession (openSmallFile 0) 0)

def opened : SessionWorld :=
  opening.next smallRegistry (.activateOpening ⟨10, 1, 1⟩ 1 (smallFile 1) none 5)

def publishing : SessionWorld := opened.next smallRegistry (.beginPublication 10 1 6)

def publishingPast : List (Transition SessionWorld RegistryCall) :=
  [⟨opened, .beginPublication 10 1 6, publishing⟩, ⟨opening, .activateOpening ⟨10, 1,
    1⟩ 1 (smallFile 1) none 5, opened⟩, ⟨initial, .beginSession (openSmallFile 0) 0, opening⟩]

theorem publishing_runs : Runs smallRegistry publishingPast publishing :=
  .next (.next (.next .start (by decide) (step_next rfl)) (by decide) (step_next rfl))
    (by decide) (step_next rfl)

end SessionWorld

theorem session_registry_keeps_its_indexes_publishing :
    SessionWorld.publishing.publications.length = 1 ∧ SessionWorld.publishing.state.Indexed ∧
      SessionWorld.publishing.state.book.Within smallRegistry ∧
      ∀ call, SessionWorld.publishing.Allows call →
        ∃ world', SessionWorld.publishing.perform smallRegistry call = .ok world' :=
  ⟨rfl, session_registry_keeps_its_indexes SessionWorld.publishing_runs⟩

end Beryl
