import Beryl.SessionRun

/-!
# Active writes below an inode

`has_active_write_under` reads the latest expiry recorded for an inode after a bounded
sweep.  What the sweep leaves behind does not matter: a write is live when its
retirement time lies after the clock, swept or not.  A submitted publication is pinned
by the retirement time `u64::MAX`, so at that clock value alone it is not seen.
-/

namespace Beryl

open Transaction Registry History SessionBook SessionWorld

def WriteSessionEntry.Pinned : WriteSessionEntry → Prop
  | .opening _ => False
  | .active session => session.publicationSubmitted = true

namespace SessionBook

variable {book book' : SessionBook} {ancestor : InodeId} {nowMs : ℕ}

/-- A write whose captured path contains the inode retires after the clock. -/
def LiveUnder (book : SessionBook) (ancestor : InodeId) (nowMs : ℕ) : Prop :=
  (∃ inodeId entry, book.entries.lookup inodeId = some entry ∧
    ancestor ∈ entry.ancestorInodeIds ∧ nowMs < entry.retirementAtMs) ∨
  ∃ operationId opening, book.createOpenings.lookup operationId = some opening ∧
    ancestor ∈ opening.parentAncestorInodeIds ∧ nowMs < opening.expiresAtMs

def PinnedUnder (book : SessionBook) (ancestor : InodeId) : Prop :=
  ∃ inodeId entry, book.entries.lookup inodeId = some entry ∧
    ancestor ∈ entry.ancestorInodeIds ∧ entry.Pinned

theorem ancestorLoad_ne_zero {time : ℕ} : book.ancestorLoad ancestor time ≠ 0 ↔
      (∃ inodeId entry, book.entries.lookup inodeId = some entry ∧
        entry.retirementAtMs = time ∧ ancestor ∈ entry.ancestorInodeIds) ∨
      ∃ operationId opening, book.createOpenings.lookup operationId = some opening ∧
        opening.expiresAtMs = time ∧ ancestor ∈ opening.parentAncestorInodeIds := by
  have hoccupies : ∀ expiresAtMs chain, occupies expiresAtMs chain ancestor time = 0 ↔
      ¬(expiresAtMs = time ∧ ancestor ∈ chain) := by
    intro expiresAtMs chain
    unfold occupies
    split <;> simp_all
  unfold ancestorLoad
  rw [ne_eq, Nat.add_eq_zero_iff, HashMap.total_eq_zero_iff, HashMap.total_eq_zero_iff, not_and_or]
  simp only [hoccupies, not_forall, not_not, exists_prop]

theorem Swept.liveUnder (h : Swept nowMs book book') :
    book'.LiveUnder ancestor nowMs ↔ book.LiveUnder ancestor nowMs := by
  constructor
  · rintro (⟨inodeId, entry, hentry, hlive⟩ | ⟨operationId, opening, hopening, hlive⟩)
    · exact .inl ⟨inodeId, entry, h.lookup_of_some hentry, hlive⟩
    · rcases h.creates operationId with hsame | ⟨hnone, -⟩
      · exact .inr ⟨operationId, opening, hsame ▸ hopening, hlive⟩
      · cases hnone.symm.trans hopening
  · rintro (⟨inodeId, entry, hentry, hpath, hlive⟩ | ⟨operationId, opening, hopening, hpath, hlive⟩)
    · exact .inl ⟨inodeId, entry, h.lookup_of_live hentry hlive, hpath, hlive⟩
    · rcases h.creates operationId with hsame | ⟨-, found, hfound, hexpired⟩
      · exact .inr ⟨operationId, opening, hsame ▸ hopening, hpath, hlive⟩
      · cases hopening.symm.trans hfound
        omega

end SessionBook

theorem Mirrors.latest {activity : AncestorActivity} {load : InodeId → ℕ → ℕ}
    (h : Mirrors activity load) (ancestor : InodeId) (nowMs : ℕ) :
    (match (activity.lookup ancestor).bind fun expirations =>
        expirations.entries.getLast? with
      | some (expiresAtMs, _) => decide (expiresAtMs > nowMs)
      | none => false) = true ↔ ∃ time, nowMs < time ∧ load ancestor time ≠ 0 := by
  have hget : ∀ time, load ancestor time ≠ 0 ↔
      ∃ count, ((activity.lookup ancestor).getD .empty).get time = some count := by
    intro time
    rw [h.counts ancestor time]
    unfold counted
    split <;> simp_all
  simp only [hget]
  cases hlookup : activity.lookup ancestor with
  | none => simp
  | some table =>
    simp only [Option.getD_some, Option.bind_some]
    cases hlast : table.entries.getLast? with
    | none =>
      have hempty := List.getLast?_eq_none_iff.1 hlast
      refine iff_of_false Bool.false_ne_true ?_
      rintro ⟨time, -, count, hcount⟩
      have hmem := table.mem_entries_iff.2 hcount
      rw [hempty] at hmem
      cases hmem
    | some last =>
      obtain ⟨latest, count⟩ := last
      simp only [decide_eq_true_eq]
      constructor
      · intro hlater
        exact ⟨latest, hlater, count, table.mem_entries_iff.1 (List.mem_of_getLast? hlast)⟩
      · rintro ⟨time, hlater, found, hfound⟩
        obtain ⟨last, hlast', hle⟩ := OrderedTable.exists_getLast_of_get hfound
        cases hlast.symm.trans hlast'
        exact lt_of_lt_of_le hlater hle

theorem SessionRegistryState.Sound.hasActiveWriteUnderAt_eq {E : Type}
    {registry : SessionRegistry} {state : SessionRegistryState} (h : state.Sound registry)
    (ancestor : InodeId) (nowMs : ℕ) :
    ((hasActiveWriteUnderAt ancestor nowMs : Registry E Bool) state).1 = .ok true ↔
      state.book.LiveUnder ancestor nowMs := by
  obtain ⟨retired, mid, hrun, hmid, hswept⟩ := h.retireExpiredEntries_run (E := E) nowMs
  have hanswer := hmid.indexed.ancestors.latest ancestor nowMs
  rw [← hswept.liveUnder]
  unfold hasActiveWriteUnderAt
  rw [bind_of_ok hrun, current_bind]
  change Except.ok _ = Except.ok true ↔ _
  rw [Except.ok.injEq]
  refine hanswer.trans ?_
  simp only [ancestorLoad_ne_zero, SessionBook.LiveUnder]
  constructor
  · rintro ⟨time, hlater, ⟨inodeId, entry, hentry, rfl, hpath⟩ |
      ⟨operationId, opening, hopening, rfl, hpath⟩⟩
    · exact .inl ⟨inodeId, entry, hentry, hpath, hlater⟩
    · exact .inr ⟨operationId, opening, hopening, hpath, hlater⟩
  · rintro (⟨inodeId, entry, hentry, hpath, hlater⟩ |
      ⟨operationId, opening, hopening, hpath, hlater⟩)
    · exact ⟨_, hlater, .inl ⟨inodeId, entry, hentry, rfl, hpath⟩⟩
    · exact ⟨_, hlater, .inr ⟨operationId, opening, hopening, rfl, hpath⟩⟩

def RegistryCall.FitsU64 : RegistryCall → Prop
  | .activateCreateOpening _ _ _ expiresAtMs _ _ _ => expiresAtMs ≤ u64Max
  | _ => True

structure SessionBook.FitsU64 (book : SessionBook) : Prop where
  entries : ∀ {inodeId entry}, book.entries.lookup inodeId = some entry →
    entry.expiresAtMs ≤ u64Max
  creates : ∀ {operationId opening}, book.createOpenings.lookup operationId = some opening →
    opening.expiresAtMs ≤ u64Max

theorem saturatingAddU64_le (left right : ℕ) : saturatingAddU64 left right ≤ u64Max :=
  min_le_right _ _

namespace SessionBook.FitsU64

variable {book book' : SessionBook} {registry : SessionRegistry} {call : RegistryCall}

section

variable (h : book.FitsU64)
include h

theorem putEntry {inodeId : InodeId} {entry : WriteSessionEntry}
    (hentry : entry.expiresAtMs ≤ u64Max) : (book.putEntry inodeId entry).FitsU64 where
  entries := by
    intro inodeId' found hfound
    rw [lookup_putEntry] at hfound
    split at hfound
    · cases hfound
      exact hentry
    · exact h.entries hfound
  creates := h.creates

theorem keepSession {inodeId inodeId' : InodeId} {session session' : WriteSession}
    (hsession : book.entries.lookup inodeId = some (.active session))
    (hsame : session'.expiresAtMs = session.expiresAtMs) :
    (book.putEntry inodeId' (.active session')).FitsU64 :=
  h.putEntry (hsame.trans_le (h.entries hsession))

theorem next (nextOpeningId nextPublicationId : ℕ) :
    SessionBook.FitsU64 { book with
      nextOpeningId := nextOpeningId
      nextPublicationId := nextPublicationId } := ⟨h.entries, h.creates⟩

theorem insertEntry {entry : WriteSessionEntry}
    (hentry : entry.expiresAtMs ≤ u64Max) : (book.insertEntry entry).FitsU64 :=
  h.putEntry hentry

theorem eraseEntry (inodeId : InodeId) : (book.eraseEntry inodeId).FitsU64 :=
  ⟨fun hfound => h.entries (lookup_of_eraseEntry hfound), h.creates⟩

theorem eraseCreate (operationId : CreateFileOperationId) :
    (book.eraseCreate operationId).FitsU64 :=
  ⟨h.entries, fun hfound => h.creates (lookup_of_eraseCreate hfound)⟩

theorem effect (hcall : call.FitsU64)
    (heffect : SessionEffect registry call book book') : book'.FitsU64 := by
  cases heffect with
  | idle => exact h
  | opened =>
    apply (h.next _ _).insertEntry
    exact saturatingAddU64_le _ _
  | reservedCreate =>
    refine ⟨h.entries, ?_⟩
    intro operationId opening hopening
    rw [lookup_insertCreate] at hopening
    split at hopening
    · cases hopening
      exact saturatingAddU64_le _ _
    · exact h.creates hopening
  | activated hopening =>
    have hexpires := h.entries hopening
    exact h.putEntry hexpires
  | created => exact (h.eraseCreate _).insertEntry hcall
  | createExpired | cancelledCreate => exact h.eraseCreate _
  | cancelledOpening | committed | removed => exact h.eraseEntry _
  | reserved hsession | issued hsession | refusedTarget hsession | releasedTarget hsession
  | submitted hsession | syncReplayed hsession | synced hsession | unpublished hsession =>
    exact h.keepSession hsession rfl
  | publishing hsession => exact (h.next _ _).keepSession hsession rfl
  | renewed hsession =>
    have hexpires := h.entries hsession
    exact h.putEntry (max_le (saturatingAddU64_le _ _) hexpires)

theorem moves (hcall : call.FitsU64) (hmoves : call.Moves registry book book') : book'.FitsU64 := by
  obtain ⟨mid, hsweeps, heffect⟩ := hmoves
  refine effect ⟨?_, ?_⟩ hcall heffect
  · intro inodeId entry hentry
    exact h.entries (hsweeps.lookup_of_some hentry)
  · intro operationId opening hopening
    exact h.creates (hsweeps.createLookup_of_some hopening)

end

end SessionBook.FitsU64

theorem SessionWorld.Runs.fitsU64 {registry : SessionRegistry} {world : SessionWorld}
    {past : List (Transition SessionWorld RegistryCall)} (hrun : Runs registry past world)
    (hfits : ∀ t ∈ past, t.label.FitsU64) : world.state.book.FitsU64 := by
  induction hrun with
  | start => exact ⟨nofun, nofun⟩
  | next hrun hallows hstep ih =>
    have hmoves := ((Runs.sound hrun).step_outcome hallows hstep).moves
    exact (ih fun t ht => hfits t (List.mem_cons_of_mem _ ht)).moves
      (hfits _ List.mem_cons_self) hmoves

theorem WriteSessionEntry.retirementAtMs_of_pinned {entry : WriteSessionEntry}
    (h : entry.Pinned) : entry.retirementAtMs = u64Max := by
  cases entry with
  | opening => cases h
  | active session => exact session.retirementAtMs_pinned h

theorem WriteSessionEntry.retirementAtMs_le {entry : WriteSessionEntry}
    (h : entry.expiresAtMs ≤ u64Max) : entry.retirementAtMs ≤ u64Max := by
  cases entry with
  | opening => exact h
  | active session =>
    change (if session.publicationSubmitted then u64Max else session.expiresAtMs) ≤ u64Max
    split
    · exact le_rfl
    · exact h

theorem SessionBook.FitsU64.not_liveUnder {book : SessionBook} (h : book.FitsU64)
    (ancestor : InodeId) : ¬book.LiveUnder ancestor u64Max := by
  rintro (⟨inodeId, entry, hentry, -, hlive⟩ | ⟨operationId, opening, hopening, -, hlive⟩)
  · exact absurd hlive (entry.retirementAtMs_le (h.entries hentry)).not_gt
  · exact absurd hlive (h.creates hopening).not_gt

/-- The answer says whether a write below the inode is live or pinned, exactly when the
clock is not at its last value or nothing below the inode is pinned. -/
theorem active_write_answer_is_exact_iff {registry : SessionRegistry} {world : SessionWorld}
    {past : List (Transition SessionWorld RegistryCall)}
    (hrun : SessionWorld.Runs registry past world) (hfits : ∀ t ∈ past, t.label.FitsU64)
    (ancestor : InodeId) {nowMs : ℕ} (hnow : nowMs ≤ u64Max) :
    (((hasActiveWriteUnderAt ancestor nowMs : Registry Empty Bool) world.state).1 = .ok true ↔
      world.state.book.LiveUnder ancestor nowMs ∨ world.state.book.PinnedUnder ancestor) ↔
    (nowMs < u64Max ∨ ¬world.state.book.PinnedUnder ancestor) := by
  rw [hrun.sound.state.hasActiveWriteUnderAt_eq]
  constructor
  · intro hexact
    by_contra hnot
    obtain ⟨hlast, hpinned⟩ := not_or.1 hnot
    have heq : nowMs = u64Max := le_antisymm hnow (not_lt.1 hlast)
    subst heq
    exact (hrun.fitsU64 hfits).not_liveUnder ancestor (hexact.2 (.inr (not_not.1 hpinned)))
  · rintro hcondition
    refine ⟨.inl, ?_⟩
    rintro (hlive | hpinned)
    · exact hlive
    · rcases hcondition with hbefore | hfree
      · obtain ⟨inodeId, entry, hentry, hpath, hpin⟩ := hpinned
        refine .inl ⟨inodeId, entry, hentry, hpath, ?_⟩
        rw [entry.retirementAtMs_of_pinned hpin]
        exact hbefore
      · exact absurd hpinned hfree

namespace SessionWorld

def frozen : WritePublication := publishing.publications.get ⟨0, by decide⟩

def submitted : SessionWorld := publishing.next smallRegistry (.markSubmitted frozen 7)

def submittedPast : List (Transition SessionWorld RegistryCall) :=
  ⟨publishing, .markSubmitted frozen 7, submitted⟩ :: publishingPast

theorem submitted_runs : Runs smallRegistry submittedPast submitted :=
  .next publishing_runs (by decide) (step_next rfl)

theorem submittedPast_fits : ∀ t ∈ submittedPast, t.label.FitsU64 := by
  simp [submittedPast, publishingPast, RegistryCall.FitsU64]

theorem submitted_pinned : submitted.state.book.PinnedUnder 1 :=
  ⟨10, .active { frozen.session with publicationSubmitted := true }, by decide, by decide, rfl⟩

end SessionWorld

theorem active_write_answer_is_exact_iff_submitted :
    ((hasActiveWriteUnderAt 1 500 : Registry Empty Bool) SessionWorld.submitted.state).1 =
        .ok true ↔ SessionWorld.submitted.state.book.LiveUnder 1 500 ∨
        SessionWorld.submitted.state.book.PinnedUnder 1 := by
  exact (active_write_answer_is_exact_iff submitted_runs
    submittedPast_fits 1 (by decide)).2 (.inl (by decide))

theorem pinned_session_is_not_seen :
    (∃ past, SessionWorld.Runs smallRegistry past SessionWorld.submitted ∧
      ∀ t ∈ past, t.label.FitsU64) ∧ SessionWorld.submitted.state.book.PinnedUnder 1 ∧
    ((hasActiveWriteUnderAt 1 u64Max : Registry Empty Bool) SessionWorld.submitted.state).1 =
      .ok false :=
  ⟨⟨_, submitted_runs, submittedPast_fits⟩, submitted_pinned, rfl⟩

end Beryl
