import Beryl.CommittedBlocks
import Beryl.SessionOwners

/-!
# The chain of issued targets

The targets of a session lie one block capacity apart, from an offset that is fixed when
the session is activated.  Each target but a reused tail is recorded under the block
before it, so that a repeated allocation finds it again.  A completed sync cuts the
chain at the synced size; the payload check makes sure that the chain continues where it
was cut.
-/

namespace Beryl

open Transaction Registry History FileData BlockShape List

/-! ## Sizes of accepted payloads -/

variable {len capacity : ℕ}

theorem FileData.mul_lt_of_lt_requiredBlocks {ordinal : ℕ}
    (h : ordinal < FileData.requiredBlocks len capacity) : ordinal * capacity < len := by
  unfold requiredBlocks at h
  split at h
  · omega
  next hpos =>
    have hle : ordinal ≤ (len - 1) / capacity := Nat.lt_succ_iff.1 h
    have hmul : ordinal * capacity ≤ len - 1 :=
      (Nat.mul_le_mul_right capacity hle).trans (Nat.div_mul_le_self _ _)
    omega

theorem FileData.le_requiredBlocks_mul (hcapacity : 0 < capacity) :
    len ≤ FileData.requiredBlocks len capacity * capacity := by
  unfold requiredBlocks
  split
  · omega
  · have hlt := Nat.lt_div_mul_add (a := len - 1) hcapacity
    rw [Nat.add_mul, Nat.one_mul]
    omega

theorem FileData.blockCount_eq_ok {count : ℕ} (h : FileData.blockCount len capacity = .ok count) :
    0 < capacity ∧ count = requiredBlocks len capacity := by
  unfold blockCount at h
  split at h
  · cases h
  next hcapacity =>
    split at h
    · cases h
    · exact ⟨Nat.pos_of_ne_zero hcapacity, (Except.ok.inj h).symm⟩

theorem CloseWriteIntent.Accepted.size_of_untouched {intent : CloseWriteIntent}
    {session : WriteSession} {count : ℕ} (h : intent.Accepted session count)
    (huntouched : ∀ target ∈ session.issuedTargets, intent.finalSize ≤ target.fileOffset) :
    intent.finalSize = if session.mode = .overwrite then 0 else session.baseSize := by
  obtain ⟨hcapacity, hcount⟩ := blockCount_eq_ok h.count_eq
  have hblocks : intent.committedBlocks = [] := by
    cases hcommitted : intent.committedBlocks with
    | nil => rfl
    | cons block =>
      have hlength := h.length_eq
      rw [hcommitted, length_cons] at hlength
      have hfits := h.fits 0 block (by rw [hcommitted]; rfl)
      obtain ⟨target, htarget, -, hoffset⟩ := hfits.issued
      have hbefore := mul_lt_of_lt_requiredBlocks
        (show intent.start session count < requiredBlocks intent.finalSize
          session.layout.blockSize by omega)
      have hafter := huntouched target htarget
      rw [hoffset, Nat.add_zero] at hafter
      omega
  have hstart : count = intent.start session count := by
    have hlength := h.length_eq
    have hle := h.start_le
    rw [hblocks, length_nil] at hlength
    omega
  have hcovers : intent.finalSize ≤ _ := le_requiredBlocks_mul hcapacity
  rw [← hcount, hstart] at hcovers
  unfold CloseWriteIntent.start at hcovers
  cases hmode : session.mode with
  | overwrite =>
    rw [hmode, if_pos rfl] at hcovers
    rw [if_pos rfl]
    omega
  | append =>
    rw [hmode, if_neg nofun] at hcovers
    rw [if_neg nofun]
    by_cases hsame : intent.finalSize = session.baseSize
    · exact hsame
    · rw [if_neg fun hboth => hsame hboth.1] at hcovers
      have hfloor := Nat.div_mul_le_self session.baseSize session.layout.blockSize
      have hgrows := h.grows hmode
      omega

structure WriteSession.SamePayload (session session' : WriteSession) : Prop where
  targets : session.issuedTargets = session'.issuedTargets
  mode : session.mode = session'.mode
  base : session.baseSize = session'.baseSize
  layout : session.layout = session'.layout

theorem WriteSession.SamePayload.refl (session : WriteSession) : session.SamePayload session :=
  ⟨rfl, rfl, rfl, rfl⟩

theorem WriteSession.SamePayload.trans {first second third : WriteSession}
    (h : first.SamePayload second) (h' : second.SamePayload third) : first.SamePayload third :=
  ⟨h.targets.trans h'.targets, h.mode.trans h'.mode, h.base.trans h'.base, h.layout.trans h'.layout⟩

/-! ## Chains -/

theorem BlockShape.blockSize_of_forEffectiveLen {layout : FileLayout} {effectiveLen : ℕ}
    {shape : BlockShape} (h : forEffectiveLen layout effectiveLen = .ok shape) :
    shape.blockSize = layout.blockSize := by
  unfold forEffectiveLen at h
  split at h
  · cases h
  · rw [new_eq_ok h]

namespace WriteSession

/-- The block that an allocation names to get the target at this place. -/
def predecessor (session : WriteSession) (place : ℕ) : Option BlockId :=
  if place = 0 then none else (session.issuedTargets[place - 1]?).map LocatedBlock.blockId

def anchor (session : WriteSession) : ℕ :=
  match session.issuedTargets with
  | tail :: _ => tail.fileOffset
  | [] => if session.mode = .overwrite then 0 else session.baseSize

/-- The issued targets continue the chain that starts at `anchor`; the first `reused`
of them were there when the session was activated. -/
structure Chained (session : WriteSession) (anchor reused : ℕ) : Prop where
  offset : ∀ (place : ℕ) (target : LocatedBlock),
    session.issuedTargets[place]? = some target →
      target.fileOffset = anchor + place * session.layout.blockSize ∧
        target.blockSize = session.layout.blockSize
  empty : session.issuedTargets = [] →
    (if session.mode = .overwrite then 0 else session.baseSize) = anchor
  steps : ∀ previous place, session.issuedSteps.lookup previous = some place ↔
    reused ≤ place ∧ place < session.issuedTargets.length ∧
      previous = session.predecessor place
  pending : ∀ pending, session.pendingAllocateBlock = some pending →
    pending.previousBlockId = session.lastIssued
  overwrite : session.mode = .overwrite → anchor = 0 ∧ reused = 0
  append : session.mode = .append → anchor ≤ session.baseSize
  tail : 0 < reused → reused = 1 ∧ session.issuedTargets ≠ [] ∧ anchor < session.baseSize

theorem predecessor_length (session : WriteSession) :
    session.predecessor session.issuedTargets.length = session.lastIssued := by
  unfold predecessor lastIssued
  rw [getLast?_eq_getElem?]
  split
  next hlength =>
    rw [length_eq_zero_iff.1 hlength]
    rfl
  next => rfl

variable {session session' : WriteSession} {anchor reused : ℕ} {place count : ℕ}
  {target : LocatedBlock} {intent : CloseWriteIntent}

theorem predecessor_congr
    (h : ∀ before < place, session'.issuedTargets[before]? = session.issuedTargets[before]?) :
    session'.predecessor place = session.predecessor place := by
  unfold predecessor
  split
  · rfl
  next hpos => rw [h (place - 1) (by omega)]

theorem Chained.congr (h : session.Chained anchor reused)
    (htargets : session'.issuedTargets = session.issuedTargets)
    (hsteps : session'.issuedSteps = session.issuedSteps)
    (hlayout : session'.layout = session.layout) (hmode : session'.mode = session.mode)
    (hbase : session'.baseSize = session.baseSize)
    (hpending : ∀ pending, session'.pendingAllocateBlock = some pending →
      pending.previousBlockId = session.lastIssued) : session'.Chained anchor reused := by
  have hpredecessor : ∀ place, session'.predecessor place = session.predecessor place :=
    fun place => predecessor_congr fun _ _ => by rw [htargets]
  constructor
  · rw [htargets, hlayout]
    exact h.offset
  · rw [htargets, hmode, hbase]
    exact h.empty
  · intro previous place
    rw [hsteps, htargets, hpredecessor]
    exact h.steps previous place
  · intro pending hsome
    rw [hpending pending hsome]
    unfold lastIssued
    rw [htargets]
  · rw [hmode]
    exact h.overwrite
  · rw [hmode, hbase]
    exact h.append
  · rw [htargets, hbase]
    exact h.tail

theorem Chained.next_offset (h : session.Chained anchor reused) {fileOffset : ℕ}
    (hoffset : nextTargetFileOffset session = .ok fileOffset) :
    fileOffset = anchor + session.issuedTargets.length * session.layout.blockSize := by
  unfold nextTargetFileOffset at hoffset
  split at hoffset
  next hnone =>
    have hempty := getLast?_eq_none_iff.1 hnone
    rw [← Except.ok.inj hoffset, h.empty hempty, hempty, length_nil]
    omega
  next last hlast =>
    rw [getLast?_eq_getElem?] at hlast
    obtain ⟨hfile, hsize⟩ := h.offset _ last hlast
    have hlength : 0 < session.issuedTargets.length := by
      by_contra hzero
      have hempty : session.issuedTargets = [] := length_eq_zero_iff.1 (by omega)
      rw [hempty] at hlast
      cases hlast
    split at hoffset
    next offset hadd =>
      obtain ⟨rfl, -⟩ := checkedAddU64_eq_some hadd
      rw [← Except.ok.inj hoffset, hfile, hsize, Nat.add_assoc, ← Nat.succ_mul]
      congr 2
      omega
    next => cases hoffset

theorem shape_of_validate {leaseEpoch : LeaseEpoch}
    (h : validateWriteTarget session leaseEpoch target = .ok ()) :
    nextTargetFileOffset session = .ok target.fileOffset ∧
      target.blockSize = session.layout.blockSize := by
  unfold validateWriteTarget at h
  simp only [bind, Except.bind, throw, throwThe, MonadExceptOf.throw, pure, Except.pure] at h
  split at h
  · cases h
  split at h
  · cases h
  split at h
  · cases h
  next offset hoffset =>
    split at h
    · cases h
    next hsame =>
      split at h
      · cases h
      next shape hshape =>
        split at h
        · cases h
        next expected hexpected =>
          split at h
          · cases h
          next hequal =>
            have hshape := new_eq_ok (mapError_eq_ok.1 hshape)
            have hexpected := blockSize_of_forEffectiveLen (mapError_eq_ok.1 hexpected)
            refine ⟨hoffset.trans (congrArg _ (not_not.1 hsame).symm), ?_⟩
            rw [← hexpected, ← not_not.1 hequal, hshape]

theorem reused_le (h : session.Chained anchor reused) : reused ≤ session.issuedTargets.length := by
  rcases Nat.eq_zero_or_pos reused with hzero | hpos
  · omega
  · obtain ⟨hone, hsome, -⟩ := h.tail hpos
    have hlength := length_pos_of_ne_nil hsome
    omega

theorem Chained.issued (h : session.Chained anchor reused) {nextPublicationId : ℕ}
    (hcoherent : session.Coherent nextPublicationId) {pending : PendingAllocateBlock}
    (hpending : session.pendingAllocateBlock = some pending) {leaseEpoch : LeaseEpoch}
    (htarget : validateWriteTarget session leaseEpoch target = .ok ()) :
    (session.issued pending target).Chained anchor reused := by
  obtain ⟨hnext, hsize⟩ := shape_of_validate htarget
  have hoffset := h.next_offset hnext
  have hfresh := hcoherent.step pending hpending
  have hprevious : pending.previousBlockId = session.predecessor session.issuedTargets.length := by
    rw [predecessor_length]
    exact h.pending pending hpending
  have hpredecessor : ∀ place ≤ session.issuedTargets.length,
      (session.issued pending target).predecessor place = session.predecessor place := by
    intro place hplace
    apply predecessor_congr
    intro before hbefore
    exact List.getElem?_append_left (by omega)
  have hlength : (session.issued pending target).issuedTargets.length =
      session.issuedTargets.length + 1 := List.length_append
  constructor
  · intro place found hfound
    change (session.issuedTargets ++ [target])[place]? = some found at hfound
    rw [List.getElem?_append] at hfound
    split at hfound
    next => exact h.offset place found hfound
    next hplace =>
      obtain ⟨hlast, hfound⟩ := List.getElem?_eq_some_iff.1 hfound
      have hzero : place - session.issuedTargets.length = 0 := Nat.lt_one_iff.1 hlast
      have heq : place = session.issuedTargets.length := by omega
      simp only [hzero, List.getElem_cons_zero] at hfound
      subst hfound heq
      exact ⟨hoffset, hsize⟩
  · intro hempty
    exact absurd hempty (List.append_ne_nil_of_right_ne_nil _ (List.cons_ne_nil _ _))
  · intro previous place
    change (session.issuedSteps.insert pending.previousBlockId _).lookup previous = _ ↔ _
    rw [HashMap.lookup_insert_eq, hlength]
    by_cases hsame : previous = pending.previousBlockId
    · rw [if_pos hsame, Option.some.injEq]
      constructor
      · rintro rfl
        refine ⟨reused_le h, Nat.lt_succ_self _, ?_⟩
        rw [hpredecessor _ le_rfl, hsame, hprevious]
      · rintro ⟨hreused, hplace, heq⟩
        rw [hpredecessor place (by omega)] at heq
        by_contra hne
        have hold := (h.steps previous place).2 ⟨hreused, by omega, heq⟩
        rw [hsame, hfresh] at hold
        cases hold
    · rw [if_neg hsame, h.steps previous place]
      constructor
      · rintro ⟨hreused, hplace, heq⟩
        exact ⟨hreused, by omega, heq.trans (hpredecessor place (by omega)).symm⟩
      · rintro ⟨hreused, hplace, heq⟩
        rw [hpredecessor place (by omega)] at heq
        refine ⟨hreused, ?_, heq⟩
        by_contra hlast
        have hlast : place = session.issuedTargets.length := by omega
        rw [hlast, ← hprevious] at heq
        exact hsame heq
  · exact nofun
  · exact h.overwrite
  · exact h.append
  · intro hpos
    obtain ⟨hone, -, hbase⟩ := h.tail hpos
    exact ⟨hone, List.append_ne_nil_of_right_ne_nil _ (List.cons_ne_nil _ _), hbase⟩

/-- On ascending offsets, the targets before the first one past a size are all those
below it. -/
theorem takeWhile_below {targets : List LocatedBlock} (fileSize : ℕ)
    (hascending : targets.Pairwise fun first second => first.fileOffset ≤ second.fileOffset) :
    (targets.takeWhile fun target => target.fileOffset < fileSize) =
      targets.filter fun target => target.fileOffset < fileSize := by
  induction targets with
  | nil => rfl
  | cons target targets ih =>
    obtain ⟨hfirst, hrest⟩ := pairwise_cons.1 hascending
    by_cases hbelow : target.fileOffset < fileSize
    · rw [takeWhile_cons_of_pos (by simpa using hbelow),
        filter_cons_of_pos (by simpa using hbelow), ih hrest]
    · rw [takeWhile_cons_of_neg (by simpa using hbelow),
        filter_cons_of_neg (by simpa using hbelow)]
      refine (filter_eq_nil_iff.2 ?_).symm
      intro later hlater
      have hle := hfirst later hlater
      simp only [decide_eq_true_eq]
      omega

section

variable (h : session.Chained anchor reused)
include h

theorem Chained.retained (fileSize : ℕ) :
    session.issuedTargets.take (retainedTargetCount session.issuedTargets fileSize) =
      session.issuedTargets.filter fun target => target.fileOffset < fileSize := by
  unfold retainedTargetCount
  rw [← prefix_iff_eq_take.1 (List.takeWhile_prefix _)]
  apply takeWhile_below
  rw [pairwise_iff_getElem]
  intro first second hfirst hsecond hlt
  rw [(h.offset first _ (getElem?_eq_getElem hfirst)).1,
    (h.offset second _ (getElem?_eq_getElem hsecond)).1]
  exact Nat.add_le_add_left (Nat.mul_le_mul_right _ hlt.le) _

theorem Chained.lt_retained {fileSize : ℕ} (htarget : session.issuedTargets[place]? = some target)
    (hbelow : target.fileOffset < fileSize) :
    place < retainedTargetCount session.issuedTargets fileSize := by
  have hretained := h.retained fileSize
  by_contra hge
  let retained := retainedTargetCount session.issuedTargets fileSize
  have hsplit := congrArg (filter fun other => other.fileOffset < fileSize)
    (take_append_drop retained session.issuedTargets)
  rw [filter_append, hretained, filter_filter] at hsplit
  simp only [Bool.and_self] at hsplit
  have hnone := append_right_eq_self.1 hsplit
  have hdropped : target ∈ session.issuedTargets.drop retained := by
    apply mem_of_getElem? (i := place - retained)
    rw [getElem?_drop, Nat.add_sub_cancel' (not_lt.1 hge), htarget]
  exact filter_eq_nil_iff.1 hnone target hdropped (decide_eq_true hbelow)

theorem Chained.predecessor_injective {place' : ℕ} (hplace : place < session.issuedTargets.length)
    (hplace' : place' < session.issuedTargets.length)
    (hsame : session.predecessor place = session.predecessor place') : place = place' := by
  have hsome : ∀ other < session.issuedTargets.length, session.predecessor other = none →
      other = 0 := by
    intro other hother hnone
    by_contra hpos
    rw [predecessor, if_neg hpos, Option.map_eq_none_iff, getElem?_eq_none_iff] at hnone
    omega
  by_cases hreused : reused ≤ place ∧ reused ≤ place'
  · have hfirst := (h.steps _ place).2 ⟨hreused.1, hplace, rfl⟩
    have hsecond := (h.steps _ place').2 ⟨hreused.2, hplace', hsame⟩
    exact Option.some.inj (hfirst.symm.trans hsecond)
  · have hone : reused = 1 := (h.tail (by omega)).1
    have hzero : place = 0 ∨ place' = 0 := by omega
    rcases hzero with rfl | rfl
    · exact (hsome place' hplace' hsame.symm).symm
    · exact hsome place hplace hsame

theorem Chained.size_eq_anchor (haccepted : intent.Accepted session count)
    (hempty : session.issuedTargets.filter (fun target => target.fileOffset < intent.finalSize) =
      []) : intent.finalSize = anchor := by
  have huntouched : ∀ target ∈ session.issuedTargets, intent.finalSize ≤ target.fileOffset := by
    intro target htarget
    have hnot := filter_eq_nil_iff.1 hempty target htarget
    exact not_lt.1 fun hlt => hnot (decide_eq_true hlt)
  have hsize := haccepted.size_of_untouched huntouched
  by_cases htargets : session.issuedTargets = []
  · rw [hsize, h.empty htargets]
  · obtain ⟨target, htarget⟩ : ∃ target, session.issuedTargets[0]? = some target :=
      ⟨_, getElem?_eq_getElem (length_pos_of_ne_nil htargets)⟩
    have hat := (h.offset 0 target htarget).1
    have hle := huntouched target (mem_of_getElem? htarget)
    rw [hat, Nat.zero_mul, Nat.add_zero] at hle
    cases hmode : session.mode with
    | overwrite =>
      rw [hmode, if_pos rfl] at hsize
      have hzero := (h.overwrite hmode).1
      omega
    | append =>
      rw [hmode, if_neg nofun] at hsize
      have hbase := h.append hmode
      omega

theorem Chained.synced (haccepted : intent.Accepted session count) (generation : ContentGeneration)
    (hidle : session.pendingAllocateBlock = none) :
    Chained { session.synced generation intent.finalSize
        (retainedTargetCount session.issuedTargets intent.finalSize) with
      publicationSubmitted := false } anchor reused := by
  let retained := retainedTargetCount session.issuedTargets intent.finalSize
  have hretained := h.retained intent.finalSize
  have hle : retained ≤ session.issuedTargets.length :=
    (session.issuedTargets.takeWhile_sublist _).length_le
  have hlength : (session.issuedTargets.take retained).length = retained := by
    rw [length_take, min_eq_left hle]
  have hget : ∀ place < retained,
      (session.issuedTargets.take retained)[place]? = session.issuedTargets[place]? :=
    fun place hplace => getElem?_take_of_lt hplace
  have hpredecessor : ∀ place ≤ retained, predecessor { session.synced generation
      intent.finalSize retained with publicationSubmitted := false } place =
        session.predecessor place := by
    intro place hplace
    apply predecessor_congr
    intro before hbefore
    exact hget before (by omega)
  have hbase : anchor ≤ intent.finalSize := by
    cases hmode : session.mode with
    | overwrite =>
      have hzero := (h.overwrite hmode).1
      omega
    | append => exact (h.append hmode).trans (haccepted.grows hmode)
  constructor
  · intro place target htarget
    change (session.issuedTargets.take retained)[place]? = some target at htarget
    rw [getElem?_take] at htarget
    split at htarget
    · exact h.offset place target htarget
    · cases htarget
  · intro hempty
    change session.issuedTargets.take retained = [] at hempty
    rw [hretained] at hempty
    exact h.size_eq_anchor haccepted hempty
  · intro previous place
    change (session.issuedSteps.filterValues _).lookup previous = some place ↔
      _ ∧ place < (session.issuedTargets.take retained).length ∧ _
    rw [HashMap.lookup_filterValues, Option.filter_eq_some_iff, h.steps previous place, hlength]
    simp only [decide_eq_true_eq]
    constructor
    · rintro ⟨⟨hreused, -, heq⟩, hplace⟩
      exact ⟨hreused, hplace, heq.trans (hpredecessor place hplace.le).symm⟩
    · rintro ⟨hreused, hplace, heq⟩
      exact ⟨⟨hreused, by omega, heq.trans (hpredecessor place hplace.le)⟩, hplace⟩
  · intro pending hpending
    cases hidle.symm.trans hpending
  · exact nofun
  · intro _
    exact hbase
  · intro hpos
    obtain ⟨hone, hsome, hbelow⟩ := h.tail hpos
    have happend : session.mode = .append := by
      cases hmode : session.mode with
      | overwrite =>
        have hzero := (h.overwrite hmode).2
        omega
      | append => rfl
    have hgrows := haccepted.grows happend
    refine ⟨hone, ?_, lt_of_lt_of_le hbelow hgrows⟩
    intro hempty
    change session.issuedTargets.take retained = [] at hempty
    rw [hretained] at hempty
    have heq := h.size_eq_anchor haccepted hempty
    omega

/-- A replayed sync of an accepted payload turns an overwrite into an append at the same
place. -/
theorem Chained.syncReplayed
    (haccepted : intent.Accepted session count) (hsize : session.baseSize = intent.finalSize) :
    Chained { session with
      mode := .append
      activePublication := none
      publicationSubmitted := false } anchor reused := by
  constructor
  · exact h.offset
  · intro hempty
    change session.baseSize = anchor
    rw [hsize]
    apply h.size_eq_anchor haccepted
    change session.issuedTargets = [] at hempty
    rw [hempty]
    rfl
  · exact h.steps
  · exact h.pending
  · exact nofun
  · intro _
    cases hmode : session.mode with
    | overwrite =>
      rw [(h.overwrite hmode).1]
      exact Nat.zero_le _
    | append => exact h.append hmode
  · exact h.tail

end

end WriteSession

namespace SessionStep

variable {registry : SessionRegistry} {nextPublicationId : ℕ} {inodeId : InodeId}
  {call : RegistryCall} {session session' : WriteSession} {anchor reused : ℕ}

theorem chained (h : SessionStep registry nextPublicationId inodeId call session session')
    (hchain : session.Chained anchor reused) (hcoherent : session.Coherent nextPublicationId)
    (haccepted : ∀ owner generation fileSize nowMs,
      call = .completeSync owner generation fileSize nowMs → owner.session.inodeId = inodeId →
      session.activePublication = some owner.publicationId →
      ∃ intent count, CloseWriteIntent.finalSize intent = fileSize ∧
        intent.Accepted session count) : session'.Chained anchor reused := by
  cases h with
  | idle => exact hchain
  | reserved hepoch hstep hpublication hprevious =>
    refine hchain.congr rfl rfl rfl rfl rfl ?_
    rintro pending ⟨⟩
    exact hprevious
  | issued hinode hepoch hpending htarget => exact hchain.issued hcoherent hpending htarget
  | refusedTarget | releasedTarget => exact hchain.congr rfl rfl rfl rfl rfl nofun
  | publishing | submitted | unpublished | renewed =>
    exact hchain.congr rfl rfl rfl rfl rfl hchain.pending
  | syncReplayed hinode hepoch hpublication hgeneration hsize =>
    obtain ⟨intent, count, rfl, hintent⟩ := haccepted _ _ _ _ rfl hinode hpublication
    exact hchain.syncReplayed hintent hsize
  | synced hinode hepoch hpublication =>
    obtain ⟨intent, count, rfl, hintent⟩ := haccepted _ _ _ _ rfl hinode hpublication
    have hidle : session.pendingAllocateBlock = none := by
      by_contra hpending
      exact absurd (hpublication.symm.trans (hcoherent.idle hpending)) nofun
    exact hchain.synced hintent _ hidle

structure KeepsTargets (call : RegistryCall) (session session' : WriteSession) : Prop where
  /-- No target is added while a publication is active. -/
  frozen : session.activePublication ≠ none →
    session'.issuedTargets <+: session.issuedTargets
  /-- A recorded target is found again, unless a sync completes below it. -/
  replays : ∀ (previous : Option BlockId) (place : ℕ) (target : LocatedBlock),
    session.issuedSteps.lookup previous = some place →
      session.issuedTargets[place]? = some target →
        (session'.issuedSteps.lookup previous = some place ∧
          session'.issuedTargets[place]? = some target) ∨
        ∃ owner generation fileSize nowMs,
          call = .completeSync owner generation fileSize nowMs ∧ fileSize ≤ target.fileOffset
  /-- A sync that installs a generation keeps exactly the targets below its size. -/
  synced : session'.generation ≠ session.generation →
    ∃ owner generation fileSize nowMs, call = .completeSync owner generation fileSize nowMs ∧
      session'.issuedTargets =
        session.issuedTargets.filter fun target => target.fileOffset < fileSize

theorem keepsTargets (h : SessionStep registry nextPublicationId inodeId call session session')
    (hchain : session.Chained anchor reused) (hcoherent : session.Coherent nextPublicationId) :
    KeepsTargets call session session' := by
  have hsame : session'.issuedTargets = session.issuedTargets →
      session'.issuedSteps = session.issuedSteps →
      session'.generation = session.generation → KeepsTargets call session session' := by
    intro htargets hsteps hgeneration
    refine ⟨fun _ => by rw [htargets], ?_, fun hne => absurd hgeneration hne⟩
    intro previous place target hstep htarget
    rw [hsteps, htargets]
    exact .inl ⟨hstep, htarget⟩
  cases h with
  | @issued caller target nowMs _ hinode hepoch hpending htarget =>
    refine ⟨?_, ?_, fun hne => absurd rfl hne⟩
    · intro hpublication
      exact absurd (hcoherent.idle (by rw [hpending]; exact nofun)) hpublication
    · intro previous place found hstep hfound
      have hfresh := hcoherent.step caller.pending hpending
      have hne : previous ≠ caller.pending.previousBlockId := by
        rintro rfl
        cases hfresh.symm.trans hstep
      have hlt := (List.getElem?_eq_some_iff.1 hfound).1
      refine .inl ⟨?_, ?_⟩
      · change (session.issuedSteps.insert caller.pending.previousBlockId _).lookup previous = _
        rw [HashMap.lookup_insert_eq, if_neg hne, hstep]
      · change (session.issuedTargets ++ [target])[place]? = _
        rw [List.getElem?_append_left hlt, hfound]
  | @synced owner generation fileSize nowMs hinode hepoch hpublication hgeneration =>
    refine ⟨fun _ => List.take_prefix _ _, ?_, fun _ => ⟨_, _, _, _, rfl, hchain.retained _⟩⟩
    intro previous place target hstep htarget
    by_cases hbelow : target.fileOffset < fileSize
    · have hplace := hchain.lt_retained htarget hbelow
      refine .inl ⟨?_, ?_⟩
      · change (session.issuedSteps.filterValues _).lookup previous = some place
        rw [HashMap.lookup_filterValues, hstep]
        exact Option.filter_some_pos (decide_eq_true hplace)
      · exact (List.getElem?_take_of_lt hplace).trans htarget
    · exact .inr ⟨_, _, _, _, rfl, not_lt.1 hbelow⟩
  | _ => exact hsame rfl rfl rfl

theorem frozen (h : SessionStep registry nextPublicationId inodeId call session session')
    (hcoherent : session.Coherent nextPublicationId) {publicationId : WritePublicationId}
    (hpublication : session'.activePublication = some publicationId)
    (hold : publicationId ≠ nextPublicationId) : session.activePublication = some publicationId ∧
      session'.SamePayload session := by
  have hidle : session.pendingAllocateBlock ≠ none → session.activePublication = none :=
    hcoherent.idle
  cases h with
  | idle => exact ⟨hpublication, .refl _⟩
  | reserved hepoch hstep hnone => cases hnone.symm.trans hpublication
  | issued hinode hepoch hpending | refusedTarget hinode hepoch hpending
  | releasedTarget hinode hepoch hpending =>
    cases (hidle (by rw [hpending]; exact nofun)).symm.trans hpublication
  | publishing => exact absurd (Option.some.inj hpublication).symm hold
  | submitted | renewed => exact ⟨hpublication, ⟨rfl, rfl, rfl, rfl⟩⟩
  | syncReplayed | synced | unpublished => cases hpublication

end SessionStep

end Beryl
