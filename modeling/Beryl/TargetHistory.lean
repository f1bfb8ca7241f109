import Beryl.TargetChain

/-!
# Chains over whole runs

A publication freezes the session it was handed out with, so the payload that was checked
against the frozen copy is a payload of the session that the sync completes.  From the
activation of a session to its end its targets are therefore one chain.
-/

namespace Beryl

open Transaction Registry History SessionWorld SessionWorld.Runs List

/-! ## Frozen sessions -/

theorem CloseWriteIntent.Accepted.congr {intent : CloseWriteIntent}
    {session session' : WriteSession} {count : ℕ} (h : intent.Accepted session count)
    (hsame : session'.SamePayload session) (hinode : session'.inodeId = session.inodeId) :
    intent.Accepted session' count := by
  obtain ⟨htargets, hmode, hbase, hlayout⟩ := hsame
  have hstart : intent.start session' count = intent.start session count := by
    unfold CloseWriteIntent.start
    rw [hmode, hbase, hlayout]
  constructor
  · rw [hbase]
    exact h.expected
  · rw [hlayout]
    exact h.count_eq
  · rw [hmode, hbase]
    exact h.grows
  · rw [hstart]
    exact h.start_le
  · rw [hstart]
    exact h.length_eq
  · intro index block hblock
    obtain ⟨⟨target, htarget, hid, hoffset⟩, howner, hlen⟩ := h.fits index block hblock
    rw [hstart]
    exact ⟨⟨target, htargets ▸ htarget, hid, hlayout ▸ hoffset⟩, howner.trans hinode.symm,
      hlayout ▸ hlen⟩
  · exact h.distinct

namespace SessionWorld

variable {registry : SessionRegistry} {world world' : SessionWorld} {call : RegistryCall}
  {past : List (Transition SessionWorld RegistryCall)}

def Frozen (world : SessionWorld) : Prop :=
  ∀ owner ∈ world.publications, ∀ session,
    world.state.entries.lookup owner.session.inodeId = some (.active session) →
      session.activePublication = some owner.publicationId →
        session.SamePayload owner.session

theorem publication_origin (hallows : world.Allows call)
    (houtcome : SessionOutcome registry world call world') {owner : WritePublication}
    (howner : owner ∈ world'.publications) :
    (∃ old ∈ world.publications, old.session = owner.session ∧
      old.publicationId = owner.publicationId) ∨
    world'.state.entries.lookup owner.session.inodeId = some (.active owner.session) := by
  have hheld : world'.Holds (.publication owner) := howner
  cases houtcome with
  | answered | refused => exact .inl ⟨owner, holds_afterCall hheld, rfl, rfl⟩
  | handed hreached hhanded =>
    rcases holds_receive hheld with rfl | hmem
    · simp only [RegistryOwner.Handed] at hhanded
      split at hhanded
      next caller nowMs =>
        subst hhanded
        exact .inl ⟨owner, hallows _ rfl, rfl, rfl⟩
      next caller nowMs =>
        obtain ⟨rfl, -⟩ := hhanded
        exact .inl ⟨caller, hallows _ rfl, rfl, rfl⟩
      next =>
        rw [receive_state, afterCall_state]
        exact .inr hhanded.2.2.2.1
    · exact .inl ⟨owner, holds_afterCall hmem, rfl, rfl⟩

theorem Runs.frozen (hrun : Runs registry past world) : world.Frozen := by
  refine Run.invariant hrun (P := Frozen) nofun ?_
  intro past world call world' hpast hfrozen hallows hstep owner howner session' hsession'
    hpublication
  have hsound := Runs.sound hpast
  have houtcome := hsound.step_outcome hallows hstep
  rcases publication_origin hallows houtcome howner with ⟨old, hold, hsame, hid⟩ | hnew
  · rcases houtcome.moves.origin hsession' with ⟨session, hsession, hstep⟩ | ⟨mid, -, hbirth⟩
    · have hissued : owner.publicationId ≠ world.state.nextPublicationId := by
        rw [← hid]
        exact (hsound.issued old hold).ne
      obtain ⟨hbefore, hpayload⟩ :=
        hstep.frozen (hsound.state.coherent.session hsession) hpublication hissued
      have hkept := hfrozen old hold session (hsame ▸ hsession) (hid ▸ hbefore)
      exact hpayload.trans (hsame ▸ hkept)
    · rw [hbirth.publication] at hpublication
      cases hpublication
  · cases hnew.symm.trans hsession'
    exact .refl _

end SessionWorld

/-! ## Whole runs -/

/-- The tail that `OpenWrite` passes on: the last block of a file that ends inside it. -/
def OpeningSession.ReusesTail (opening : OpeningSession) (file : FileData) :
    Option LocatedBlock → Prop
  | none => opening.mode = .append → file.len % file.layout.blockSize = 0
  | some tail =>
    opening.mode = .append ∧ file.len % file.layout.blockSize ≠ 0 ∧
      file.blocks.length = FileData.requiredBlocks file.len file.layout.blockSize ∧
      tail.fileOffset = (file.blocks.length - 1) * file.layout.blockSize ∧
      tail.blockSize = file.layout.blockSize

namespace RegistryCall

/-- An activation passes on the tail that `OpenWrite` located. -/
def LocatesTail (call : RegistryCall) (book : SessionBook) : Prop :=
  match call with
  | .activateOpening owner _ file tail _ =>
    ∀ opening, book.entries.lookup owner.inodeId = some (.opening opening) →
      opening.ReusesTail file tail
  | _ => True

/-- A sync completes with the size of a payload that its frozen session accepts. -/
def SyncsPayload : RegistryCall → Prop
  | .completeSync owner _ fileSize _ =>
    ∃ intent blocks, CloseWriteIntent.finalSize intent = fileSize ∧
      validateCommittedBlocks intent owner.session = .ok blocks
  | _ => True

end RegistryCall

namespace WriteSession

variable {session : WriteSession}

theorem chained_of_fresh (hsteps : session.issuedSteps = ∅)
    (hpending : session.pendingAllocateBlock = none)
    (htail : session.issuedTargets = [] ∨ ∃ tail, session.issuedTargets = [tail] ∧
      session.mode = .append ∧ tail.fileOffset < session.baseSize ∧
      tail.blockSize = session.layout.blockSize) :
    session.Chained session.anchor session.issuedTargets.length := by
  have hnone : ∀ previous place, session.issuedSteps.lookup previous = some place ↔
      session.issuedTargets.length ≤ place ∧ place < session.issuedTargets.length ∧
        previous = session.predecessor place := by
    intro previous place
    rw [hsteps, Finmap.lookup_empty]
    constructor
    · exact nofun
    · omega
  have hidle : ∀ pending, session.pendingAllocateBlock = some pending →
      pending.previousBlockId = session.lastIssued := by
    rw [hpending]
    exact nofun
  rcases htail with hempty | ⟨tail, hone, hmode, hbelow, hsize⟩
  · have hanchor : session.anchor = if session.mode = .overwrite then 0
        else session.baseSize := by
      unfold anchor
      rw [hempty]
    refine ⟨?_, fun _ => hanchor.symm, hnone, hidle, ?_, ?_, ?_⟩
    · rw [hempty]
      exact nofun
    · intro hmode
      rw [hanchor, if_pos hmode, hempty]
      exact ⟨rfl, rfl⟩
    · intro hmode
      rw [hanchor, if_neg (by rw [hmode]; exact nofun)]
    · rw [hempty]
      exact nofun
  · have hanchor : session.anchor = tail.fileOffset := by
      unfold anchor
      rw [hone]
    refine ⟨?_, ?_, hnone, hidle, ?_, ?_, ?_⟩
    · intro place target htarget
      rw [hone, getElem?_singleton] at htarget
      split at htarget
      next hplace =>
        cases htarget
        rw [hanchor, hplace, Nat.zero_mul]
        exact ⟨rfl, hsize⟩
      next => cases htarget
    · rw [hone]
      exact nofun
    · rw [hmode]
      exact nofun
    · intro _
      rw [hanchor]
      exact hbelow.le
    · intro _
      rw [hanchor, hone]
      exact ⟨rfl, nofun, hbelow⟩

end WriteSession

/-! ## From the activation on -/

theorem SessionRegistryState.Sound.allocation_replays {registry : SessionRegistry}
    {state : SessionRegistryState} (h : state.Sound registry) {inodeId : InodeId}
    {session : WriteSession} (hsession : state.entries.lookup inodeId = some (.active session))
    {previous : Option BlockId} {place : ℕ} {target : LocatedBlock}
    (hstep : session.issuedSteps.lookup previous = some place)
    (htarget : session.issuedTargets[place]? = some target) {nowMs : ℕ}
    (hlive : nowMs < session.retirementAtMs) :
    (beginAllocateBlock registry inodeId session.leaseEpoch previous nowMs state).1 =
      .ok (.replay target) := by
  obtain ⟨mid, hrun, -, hswept, -⟩ := h.retireFor_run (E := BeginAllocateBlockError) inodeId nowMs
  have hmid : mid.entries.lookup inodeId = some (.active session) :=
    hswept.lookup_of_live hsession hlive
  unfold beginAllocateBlock
  rw [bind_of_ok hrun, current_bind, activeSession_eq_ok.2 hmid]
  change ((do
    refuseIf (session.leaseEpoch ≠ session.leaseEpoch) _
    _) mid).1 = _
  unfold refuseIf failIf
  rw [if_neg (not_not_intro rfl), hstep]
  change ((do
    let target ← okOr session.issuedTargets[place]? _
    _) mid).1 = _
  rw [htarget]
  rfl

namespace SessionBirth

variable {registry : SessionRegistry} {book mid : SessionBook} {inodeId : InodeId}
  {call : RegistryCall} {session : WriteSession}

section

variable (h : SessionBirth registry mid inodeId call session)
include h

/-- A new session is the chain of the tail that `OpenWrite` located. -/
theorem chained (hsweeps : call.Sweeps book mid) (htail : call.LocatesTail book) :
    session.Chained session.anchor session.issuedTargets.length := by
  cases h with
  | @activated owner returnedLeaseEpoch file tail nowMs opening hinode hopening howner hepoch
      hfile =>
      subst hinode
      have hreuses := htail opening (hsweeps.lookup_of_some hopening)
      apply WriteSession.chained_of_fresh rfl rfl
      cases tail with
      | none => exact .inl rfl
      | some tail =>
        obtain ⟨hmode, hpart, hblocks, hoffset, hsize⟩ := hreuses
        refine .inr ⟨tail, rfl, hmode, ?_, hsize.trans (congrArg _ hfile.2)⟩
        have hpos : 0 < file.blocks.length := by
          rw [hblocks]
          unfold FileData.requiredBlocks
          split
          next hzero =>
            rw [hzero, Nat.zero_mod] at hpart
            exact absurd rfl hpart
          next => exact Nat.succ_pos _
        change tail.fileOffset < file.len
        rw [hoffset]
        apply FileData.mul_lt_of_lt_requiredBlocks
        omega
  | created => exact WriteSession.chained_of_fresh rfl rfl (.inl rfl)

theorem anchor_eq (hsweeps : call.Sweeps book mid) (htail : call.LocatesTail book) :
    (session.mode = .overwrite → session.anchor = 0) ∧
    (session.mode = .append → session.baseSize % session.layout.blockSize = 0 →
      session.anchor = session.baseSize) ∧
    (session.mode = .append → session.baseSize % session.layout.blockSize ≠ 0 →
      ∃ tail, session.issuedTargets = [tail] ∧ session.anchor = tail.fileOffset) := by
  cases h with
  | @activated owner returnedLeaseEpoch file tail nowMs opening hinode hopening howner hepoch
      hfile =>
      subst hinode
      have hreuses := htail opening (hsweeps.lookup_of_some hopening)
      have hlayout := congrArg FileLayout.blockSize hfile.2
      change (opening.mode = .overwrite → _) ∧
        (opening.mode = .append → file.len % opening.layout.blockSize = 0 → _) ∧
        (opening.mode = .append → file.len % opening.layout.blockSize ≠ 0 → _)
      rw [← hlayout]
      cases tail with
      | none =>
        refine ⟨fun hmode => if_pos hmode, fun hmode _ => if_neg ?_, fun hmode hpart =>
          absurd (hreuses hmode) hpart⟩
        change ¬opening.mode = .overwrite
        rw [hmode]
        exact nofun
      | some tail =>
        obtain ⟨hmode, hpart, -⟩ := hreuses
        refine ⟨fun hoverwrite => ?_, fun _ haligned => absurd haligned hpart, fun _ _ =>
          ⟨tail, rfl, rfl⟩⟩
        cases hoverwrite.symm.trans hmode
  | created => exact ⟨fun _ => rfl, nofun, nofun⟩

theorem not_active (hsweeps : call.Sweeps book mid) (other : WriteSession) :
    book.entries.lookup inodeId ≠ some (.active other) := by
  intro hother
  cases h with
  | activated hinode hopening =>
    cases hother.symm.trans (hsweeps.lookup_of_some hopening)
  | created hnew =>
    cases hsweeps
    cases hother.symm.trans hnew

end

end SessionBirth

namespace SessionWorld

variable {registry : SessionRegistry} {world : SessionWorld}
  {newer older : List (Transition SessionWorld RegistryCall)}
  {t : Transition SessionWorld RegistryCall} {inodeId : InodeId}

theorem Sound.accepted_of_sync (hsound : world.Sound registry) (hfrozen : world.Frozen)
    {call : RegistryCall} (hallows : world.Allows call) (hsync : call.SyncsPayload)
    {session : WriteSession}
    (hsession : world.state.entries.lookup inodeId = some (.active session)) :
    ∀ owner generation fileSize nowMs, call = .completeSync owner generation fileSize nowMs →
      owner.session.inodeId = inodeId → session.activePublication = some owner.publicationId →
      ∃ intent count, CloseWriteIntent.finalSize intent = fileSize ∧
        intent.Accepted session count := by
  rintro owner generation fileSize nowMs rfl rfl hpublication
  obtain ⟨intent, blocks, hsize, hvalid⟩ := hsync
  obtain ⟨-, count, haccepted⟩ := validateCommittedBlocks_ok hvalid
  have howner : owner ∈ world.publications := hallows (.publication owner) rfl
  have hsame := hfrozen owner howner session hsession hpublication
  have hinode : session.inodeId = owner.session.inodeId := hsound.state.coherent.inode hsession
  exact ⟨intent, count, hsize, haccepted.congr hsame hinode⟩

theorem Sound.session_step (hsound : world.Sound registry) {call : RegistryCall}
    {world' : SessionWorld} (hallows : world.Allows call) (hstep : Step registry world call world')
    {session session' : WriteSession}
    (hsession : world.state.entries.lookup inodeId = some (.active session))
    (hsession' : world'.state.entries.lookup inodeId = some (.active session')) :
    SessionStep registry world.state.nextPublicationId inodeId call session session' := by
  have hmoves := (hsound.step_outcome hallows hstep).moves
  rcases hmoves.origin hsession' with ⟨old, hold, hstep⟩ | ⟨mid, hsweeps, hbirth⟩
  · cases hsession.symm.trans hold
    exact hstep
  · exact absurd hsession (hbirth.not_active hsweeps session)

/-- The targets of a session are a chain for as long as it lives, and every call treats
them as a chain. -/
theorem Runs.chained (hrun : Runs registry (newer ++ t :: older) world)
    (htail : t.label.LocatesTail t.before.state.book) (hsyncs : ∀ u ∈ newer, u.label.SyncsPayload)
    (hbefore : ∀ session, t.before.state.entries.lookup inodeId ≠ some (.active session))
    {start : WriteSession} (hafter : t.after.state.entries.lookup inodeId = some (.active start))
    (halive : ∀ visit ∈ visited newer world, ∃ session,
      visit.state.entries.lookup inodeId = some (.active session)) :
    (∀ session, world.state.entries.lookup inodeId = some (.active session) →
      session.Chained start.anchor start.issuedTargets.length) ∧ ∀ u ∈ newer, ∀ session session',
      u.before.state.entries.lookup inodeId = some (.active session) →
      u.after.state.entries.lookup inodeId = some (.active session') →
        SessionStep.KeepsTargets u.label session session' := by
  induction newer generalizing world with
  | nil =>
    cases hrun with
    | next hrun hallows hstep =>
      refine ⟨?_, fun u hu => absurd hu not_mem_nil⟩
      intro session hsession
      cases hafter.symm.trans hsession
      have hmoves := ((Runs.sound hrun).step_outcome hallows hstep).moves
      rcases hmoves.origin hsession with ⟨old, hold, -⟩ | ⟨mid, hsweeps, hbirth⟩
      · exact absurd hold (hbefore old)
      · exact hbirth.chained hsweeps htail
  | cons u newer ih =>
    cases hrun with
    | next hrun hallows hstep =>
      have hsound := Runs.sound hrun
      obtain ⟨hchained, hkeeps⟩ := ih hrun (fun v hv => hsyncs v (mem_cons_of_mem _ hv))
        (fun visit hvisit => halive visit (mem_cons_of_mem _ hvisit))
      obtain ⟨session, hsession⟩ := halive _ (mem_cons_of_mem _ mem_cons_self)
      have hcoherent := hsound.state.coherent.session hsession
      constructor
      · intro session' hsession'
        have hsession_step := hsound.session_step hallows hstep hsession hsession'
        exact hsession_step.chained (hchained session hsession) hcoherent
          (hsound.accepted_of_sync (Runs.frozen hrun) hallows (hsyncs _ mem_cons_self) hsession)
      · intro v hv old old' hold hold'
        rcases mem_cons.1 hv with rfl | hv
        · cases hsession.symm.trans hold
          exact (hsound.session_step hallows hstep hsession hold').keepsTargets
            (hchained session hsession) hcoherent
        · exact hkeeps v hv old old' hold hold'

end SessionWorld

/-- From its activation to its end, the issued targets of a session form one chain. -/
theorem issued_targets_form_a_chain {registry : SessionRegistry}
    {newer older : List (Transition SessionWorld RegistryCall)}
    {t : Transition SessionWorld RegistryCall} {world : SessionWorld}
    (hrun : SessionWorld.Runs registry (newer ++ t :: older) world)
    (htail : t.label.LocatesTail t.before.state.book)
    (hsyncs : ∀ u ∈ newer, u.label.SyncsPayload)
    {inodeId : InodeId} {start : WriteSession}
    (hbefore : ∀ session, t.before.state.entries.lookup inodeId ≠ some (.active session))
    (hafter : t.after.state.entries.lookup inodeId = some (.active start))
    (halive : ∀ visit ∈ visited newer world, ∃ session,
      visit.state.entries.lookup inodeId = some (.active session)) :
    ((start.mode = .overwrite → start.anchor = 0) ∧
      (start.mode = .append → start.baseSize % start.layout.blockSize = 0 →
        start.anchor = start.baseSize) ∧
      (start.mode = .append → start.baseSize % start.layout.blockSize ≠ 0 →
        ∃ tail, start.issuedTargets = [tail] ∧ start.anchor = tail.fileOffset)) ∧
    (∃ session, world.state.entries.lookup inodeId = some (.active session) ∧
      session.Chained start.anchor start.issuedTargets.length ∧
      (∀ place place', place < session.issuedTargets.length →
        place' < session.issuedTargets.length →
        session.predecessor place = session.predecessor place' → place = place') ∧
      ∀ previous place target nowMs, session.issuedSteps.lookup previous = some place →
        session.issuedTargets[place]? = some target → nowMs < session.retirementAtMs →
        (beginAllocateBlock registry inodeId session.leaseEpoch previous nowMs
          world.state).1 = .ok (.replay target)) ∧
    ∀ u ∈ newer, ∀ session session',
      u.before.state.entries.lookup inodeId = some (.active session) →
      u.after.state.entries.lookup inodeId = some (.active session') →
        SessionStep.KeepsTargets u.label session session' := by
  obtain ⟨hchained, hkeeps⟩ := chained hrun htail hsyncs hbefore hafter halive
  obtain ⟨session, hsession⟩ := halive world self_mem_visited
  have hchain := hchained session hsession
  refine ⟨?_, ⟨session, hsession, hchain, ?_, ?_⟩, hkeeps⟩
  · obtain ⟨past, hpast, hallows, hstep⟩ := Run.of_mem hrun (mem_append_right newer mem_cons_self)
    have hmoves := ((sound hpast).step_outcome hallows hstep).moves
    rcases hmoves.origin hafter with ⟨old, hold, -⟩ | ⟨mid, hsweeps, hbirth⟩
    · exact absurd hold (hbefore old)
    · exact hbirth.anchor_eq hsweeps htail
  · intro place place' hplace hplace' hsame
    exact hchain.predecessor_injective hplace hplace' hsame
  · intro previous place target nowMs hstep htarget hlive
    exact (sound hrun).state.allocation_replays hsession hstep htarget hlive

namespace SessionWorld

def firstTarget : LocatedBlock where
  blockId := ⟨10, 0⟩
  fileOffset := 0
  blockSize := 4096
  workerEndpoints := []
  fencingToken := ⟨⟨10, 0⟩, 7, 1⟩
  writeOffset := 0
  chunkSize := durablePrefixStorageChunkSize
  blockFormatId := .durablePrefix
  tier := .mem

def durableInput : BeginSessionInput :=
  { openSmallFile 0 with layout := ⟨4096, .durablePrefix⟩ }

def durableFile : FileData := { smallFile 1 with layout := ⟨4096, .durablePrefix⟩ }

def durableOpening : SessionWorld := initial.next smallRegistry (.beginSession durableInput 0)

def durableOpened : SessionWorld :=
  durableOpening.next smallRegistry (.activateOpening ⟨10, 1, 1⟩ 1 durableFile none 5)

/-- A target is reserved, issued and frozen by a publication, whose sync completes. -/
def reserved : SessionWorld := durableOpened.next smallRegistry (.beginAllocateBlock 10 1 none 6)

def reservation : WriteTargetReservation := reserved.reservations.get ⟨0, by decide⟩

def issued : SessionWorld :=
  reserved.next smallRegistry (.completeTarget reservation firstTarget 7)

def syncing : SessionWorld := issued.next smallRegistry (.beginPublication 10 1 8)

def syncOwner : WritePublication := syncing.publications.get ⟨0, by decide⟩

def synced : SessionWorld := syncing.next smallRegistry (.completeSync syncOwner 1 4096 9)

def openedPast : List (Transition SessionWorld RegistryCall) :=
  [⟨initial, .beginSession durableInput 0, durableOpening⟩]

def activation : Transition SessionWorld RegistryCall :=
  ⟨durableOpening, .activateOpening ⟨10, 1, 1⟩ 1 durableFile none 5, durableOpened⟩

def syncedSince : List (Transition SessionWorld RegistryCall) :=
  [⟨syncing, .completeSync syncOwner 1 4096 9, synced⟩, ⟨issued, .beginPublication 10 1 8, syncing⟩,
    ⟨reserved, .completeTarget reservation firstTarget 7, issued⟩, ⟨durableOpened,
    .beginAllocateBlock 10 1 none 6, reserved⟩]

theorem synced_runs : Runs smallRegistry (syncedSince ++ activation :: openedPast) synced :=
  .next (.next (.next (.next (.next (.next .start (by decide) (step_next rfl)) (by decide)
    (step_next rfl)) (by decide) (step_next rfl)) (by decide) (step_next rfl)) (by decide)
    (step_next rfl)) (by decide) (step_next rfl)

def durableSession : WriteSession := (activeSession durableOpened.state 10).toOption.get rfl

theorem syncedSince_syncs : ∀ u ∈ syncedSince, u.label.SyncsPayload := by
  simp only [syncedSince, forall_mem_cons]
  exact ⟨⟨⟨[⟨⟨10, 0⟩, 4096⟩], 4096, 0⟩, _, rfl, rfl⟩, trivial, trivial, trivial, forall_mem_nil _⟩

theorem synced_alive : ∀ visit ∈ visited syncedSince synced,
    ∃ session, visit.state.entries.lookup 10 = some (.active session) := by
  simp only [visited, syncedSince, map_cons, map_nil, forall_mem_cons]
  exact ⟨⟨_, rfl⟩, ⟨_, rfl⟩, ⟨_, rfl⟩, ⟨_, rfl⟩, ⟨_, rfl⟩, forall_mem_nil _⟩

end SessionWorld

theorem issued_targets_form_a_chain_synced :
    ∃ session, SessionWorld.synced.state.entries.lookup 10 = some (.active session) ∧
      session.Chained 0 0 ∧ session.issuedTargets = [SessionWorld.firstTarget] ∧
      ∀ nowMs < session.retirementAtMs,
        (beginAllocateBlock smallRegistry 10 session.leaseEpoch none nowMs
          SessionWorld.synced.state).1 = .ok (.replay SessionWorld.firstTarget) := by
  have hbefore : ∀ session, activation.before.state.entries.lookup 10 ≠ some (.active session) := by
    intro session hsession
    cases (show activation.before.state.entries.lookup 10 = some (.opening _) from
      rfl).symm.trans hsession
  have hafter : activation.after.state.entries.lookup 10 = some (.active durableSession) := rfl
  obtain ⟨-, ⟨session, hsession, hchain, -, hreplays⟩, -⟩ := issued_targets_form_a_chain
    synced_runs (fun _ _ _ => rfl) syncedSince_syncs hbefore hafter
    synced_alive
  refine ⟨session, hsession, hchain, ?_⟩
  cases (show synced.state.entries.lookup 10 = some (.active _) from rfl).symm.trans
    hsession
  exact ⟨rfl, fun nowMs hlive => hreplays none 0 _ nowMs rfl rfl hlive⟩

end Beryl
