import Beryl.Cleanup

/-!
# What a cleanup candidate has behind it

Each candidate can be traced to the complete cycle that admitted it.  Every complete cycle since
then has classified it as reclaimable, for otherwise the cycle would have retired it, and one of
them has the term for which the candidate is verified.
-/

namespace Beryl

open HashMap CleanupState List

/-! ## The cycle that is under way -/

/-- What holds of the candidates and the cycle while its pages are applied; `classified` are the
decisions of all its pages so far. -/
structure CycleSound (config : BlockCleanupConfig)
    (classified : List (ReplicaKey × CleanupDecision)) (entries : CleanupEntries)
    (cycle : CleanupScanCycle) : Prop where
  seen : ∀ key ∈ cycle.seenExisting, (key, .reclaimable) ∈ classified
  pending : ∀ key ∈ cycle.pendingNew, (key, .reclaimable) ∈ classified
  nodup : cycle.pendingNew.Nodup
  apart : ∀ key ∈ cycle.pendingNew, entries.lookup key = none
  bounded : entries.len + cycle.pendingNew.length ≤ config.maxCandidates

/-- The candidates of `smaller` are candidates of `larger`, unchanged. -/
def Within (smaller larger : CleanupEntries) : Prop :=
  ∀ key entry, smaller.lookup key = some entry → larger.lookup key = some entry

theorem Within.trans {first second third : CleanupEntries} (h : Within first second)
    (h' : Within second third) : Within first third :=
  fun key entry hentry => h' key entry (h key entry hentry)

theorem Within.lookup_eq_none {smaller larger : CleanupEntries} (h : Within smaller larger)
    {key : ReplicaKey} (hnone : larger.lookup key = none) : smaller.lookup key = none := by
  rcases hlookup : smaller.lookup key with _ | entry
  · rfl
  · rw [h key entry hlookup] at hnone
    cases hnone

theorem within_erase (entries : CleanupEntries) (key : ReplicaKey) :
    Within (entries.erase key) entries :=
  fun _ _ hentry => lookup_of_erase hentry

theorem len_erase_le (entries : CleanupEntries) (key : ReplicaKey) :
    len (Finmap.erase key entries) ≤ entries.len := by
  rcases hkey : entries.lookup key with _ | entry
  · have hsame : Finmap.erase key entries = entries := by
      refine Finmap.ext_lookup fun key' => ?_
      rw [lookup_erase_eq]
      split
      · next heq => rw [← hkey, heq]
      · rfl
    rw [hsame]
  · have hlen := len_erase hkey
    omega

section Page

variable {config : BlockCleanupConfig} {classified : List (ReplicaKey × CleanupDecision)}
  {entries : CleanupEntries} {cycle : CleanupScanCycle}

section

variable (h : CycleSound config classified entries cycle)
include h

theorem CycleSound.mono {classified' : List (ReplicaKey × CleanupDecision)}
    (hsub : classified ⊆ classified') : CycleSound config classified' entries cycle :=
  ⟨fun key hkey => hsub (h.seen key hkey), fun key hkey => hsub (h.pending key hkey), h.nodup,
    h.apart, h.bounded⟩

theorem CycleSound.fewer {entries' : CleanupEntries}
    (hnone : ∀ key, entries.lookup key = none → entries'.lookup key = none)
    (hlen : entries'.len ≤ entries.len) : CycleSound config classified entries' cycle := by
  refine ⟨h.seen, h.pending, h.nodup, fun key hkey => hnone key (h.apart key hkey), ?_⟩
  have hbounded := h.bounded
  omega

theorem CycleSound.forget (replica : ReplicaKey) :
    CycleSound config classified (Finmap.erase replica entries)
      { cycle with pendingNew := cycle.pendingNew.erase replica } := by
  have hdropped := h.fewer (fun _ => (within_erase entries replica).lookup_eq_none)
    (len_erase_le entries replica)
  refine ⟨h.seen, fun key hkey => h.pending key (mem_of_mem_erase hkey), h.nodup.erase replica,
    fun key hkey => hdropped.apart key (mem_of_mem_erase hkey), ?_⟩
  have hlen := length_erase_le (a := replica) (l := cycle.pendingNew)
  have hbounded := hdropped.bounded
  show len (Finmap.erase replica entries) + (cycle.pendingNew.erase replica).length ≤ _
  omega

theorem CycleSound.applyDecision (replica : ReplicaKey) (decision : CleanupDecision) :
    CycleSound config (classified ++ [(replica, decision)])
      (CleanupState.applyDecision config (entries, cycle) (replica, decision)).1
      (CleanupState.applyDecision config (entries, cycle) (replica, decision)).2 := by
  have hmore := h.mono (List.subset_append_left classified [(replica, decision)])
  cases decision with
  | keep | wait => exact hmore.forget replica
  | reclaimable =>
    have hself : (replica, .reclaimable) ∈ classified ++ [(replica, CleanupDecision.reclaimable)] :=
      List.mem_append_right _ List.mem_cons_self
    simp only [CleanupState.applyDecision]
    split
    · refine ⟨fun key hkey => ?_, hmore.pending, h.nodup, h.apart, h.bounded⟩
      rcases List.mem_insert_iff.1 hkey with rfl | hkey
      · exact hself
      · exact hmore.seen key hkey
    · next hnew =>
        have hnone : entries.lookup replica = none := by simpa using hnew
        split
        · exact hmore
        · next hpending =>
            split
            · next hroom =>
                refine ⟨hmore.seen, fun key hkey => ?_, List.nodup_cons.2 ⟨hpending, h.nodup⟩,
                  fun key hkey => ?_, ?_⟩
                · rcases List.mem_cons.1 hkey with rfl | hkey
                  · exact hself
                  · exact hmore.pending key hkey
                · rcases List.mem_cons.1 hkey with rfl | hkey
                  · exact hnone
                  · exact h.apart key hkey
                · show len entries + (cycle.pendingNew.length + 1) ≤ _
                  omega
            · exact hmore

end

theorem within_applyDecision (replica : ReplicaKey) (decision : CleanupDecision) :
    Within (CleanupState.applyDecision config (entries, cycle) (replica, decision)).1 entries := by
  cases decision with
  | keep | wait => exact within_erase entries replica
  | reclaimable =>
    intro key entry hentry
    simp only [applyDecision] at hentry
    split at hentry
    · exact hentry
    · split at hentry
      · exact hentry
      · split at hentry <;> exact hentry

theorem CycleSound.applyDecisions (page : List (ReplicaKey × CleanupDecision))
    (h : CycleSound config classified entries cycle) : CycleSound config (classified ++ page)
        (applyDecisions config page entries cycle).1 (applyDecisions config page entries cycle).2 ∧
      Within (applyDecisions config page entries cycle).1 entries := by
  induction page generalizing classified entries cycle with
  | nil =>
    rw [append_nil]
    exact ⟨h, fun _ _ hentry => hentry⟩
  | cons head rest ih =>
    rcases head with ⟨replica, decision⟩
    rcases ih (h.applyDecision replica decision) with ⟨hsound, hwithin⟩
    rw [append_assoc, singleton_append] at hsound
    exact ⟨hsound, hwithin.trans (within_applyDecision replica decision)⟩

theorem applyDecision_leaderTerm (replica : ReplicaKey) (decision : CleanupDecision) :
    (CleanupState.applyDecision config (entries, cycle) (replica, decision)).2.leaderTerm =
      cycle.leaderTerm := by
  cases decision with
  | keep | wait => rfl
  | reclaimable =>
    simp only [applyDecision]
    split_ifs <;> rfl

theorem applyDecisions_leaderTerm (page : List (ReplicaKey × CleanupDecision)) :
    (applyDecisions config page entries cycle).2.leaderTerm = cycle.leaderTerm := by
  induction page generalizing entries cycle with
  | nil => rfl
  | cons head rest ih => exact Eq.trans ih (applyDecision_leaderTerm head.1 head.2)

end Page

/-! ## Complete cycles -/

def CompleteCycle.classified (cycle : CompleteCycle) : List (ReplicaKey × CleanupDecision) :=
  cycle.pages.flatMap TakenPage.classified

/-- The replica was on a page of the cycle, and the decision that was read for it was to
reclaim it; all pages were taken in the term of the cycle. -/
def CompleteCycle.Reclaims (cycle : CompleteCycle) (key : ReplicaKey) : Prop :=
  (∀ page ∈ cycle.pages, page.scanTerm = cycle.leaderTerm) ∧
    ∃ page ∈ cycle.pages, key ∈ page.replicas ∧ page.readings.classify key = .ok .reclaimable

theorem TakenPage.of_mem_classified {page : TakenPage} {key : ReplicaKey}
    (h : (key, .reclaimable) ∈ page.classified) :
    key ∈ page.replicas ∧ page.readings.classify key = .ok .reclaimable := by
  rcases mem_map.1 h with ⟨replica, hreplica, heq⟩
  rcases Prod.mk.inj heq with ⟨rfl, hdecision⟩
  refine ⟨hreplica, ?_⟩
  rcases hread : page.readings.classify replica with error | decision
  · rw [hread] at hdecision
    cases hdecision
  · rw [hread] at hdecision
    rw [show decision = .reclaimable from hdecision]

theorem CompleteCycle.reclaims {cycle : CompleteCycle} {key : ReplicaKey}
    (hterms : ∀ page ∈ cycle.pages, page.scanTerm = cycle.leaderTerm)
    (h : (key, .reclaimable) ∈ cycle.classified) : cycle.Reclaims key := by
  rcases mem_flatMap.1 h with ⟨page, hpage, hclassified⟩
  exact ⟨hterms, page, hpage, TakenPage.of_mem_classified hclassified⟩

/-- The candidate was admitted by a complete cycle, and it has been classified as reclaimable in
that cycle and in every complete one since; the term for which it is verified is the term of one
of them. -/
def CleanupEntry.Backed (config : BlockCleanupConfig) (completed : List CompleteCycle)
    (key : ReplicaKey) (entry : CleanupEntry) : Prop :=
  ∃ newer admission older, completed = newer ++ admission :: older ∧
    key ∈ admission.admitted ∧
    entry.firstSeen = admission.endedAt ∧
    entry.notBefore = admission.endedAt + config.reclaimGrace ∧
    (∀ cycle ∈ newer ++ [admission], (key, .reclaimable) ∈ cycle.classified) ∧
    ∃ cycle ∈ newer ++ [admission], cycle.leaderTerm = entry.verifiedTerm

def EntriesBacked (config : BlockCleanupConfig) (completed : List CompleteCycle)
    (entries : CleanupEntries) : Prop :=
  ∀ key entry, entries.lookup key = some entry → entry.Backed config completed key

theorem EntriesBacked.within {config : BlockCleanupConfig} {completed : List CompleteCycle}
    {entries entries' : CleanupEntries} (h : EntriesBacked config completed entries)
    (hwithin : Within entries' entries) : EntriesBacked config completed entries' :=
  fun key entry hentry => h key entry (hwithin key entry hentry)

section Complete

variable {config : BlockCleanupConfig} {completed : List CompleteCycle}
  {last : CompleteCycle} {key : ReplicaKey}

theorem CleanupEntry.Backed.verify {entry : CleanupEntry}
    (h : entry.Backed config completed key) (hseen : (key, .reclaimable) ∈ last.classified) :
    CleanupEntry.Backed config (last :: completed) key
      { entry with verifiedTerm := last.leaderTerm } := by
  rcases h with ⟨newer, admission, older, rfl, hadmitted, hfirst, hgrace, hevery, -⟩
  refine ⟨last :: newer, admission, older, rfl, hadmitted, hfirst, hgrace, ?_, last,
    mem_cons_self, rfl⟩
  intro cycle hcycle
  rcases mem_cons.1 hcycle with rfl | hcycle
  · exact hseen
  · exact hevery cycle hcycle

theorem CleanupEntry.Backed.ofAdmission (attemptAt attempts : ℕ) (hadmitted : key ∈ last.admitted)
    (hseen : (key, .reclaimable) ∈ last.classified) :
    CleanupEntry.Backed config (last :: completed) key
      ⟨last.endedAt, last.endedAt + config.reclaimGrace, attemptAt, attempts, last.leaderTerm⟩ := by
  refine ⟨[], last, completed, rfl, hadmitted, rfl, rfl, ?_, last, mem_cons_self, rfl⟩
  intro cycle hcycle
  rw [nil_append, mem_singleton] at hcycle
  rw [hcycle]
  exact hseen

variable {entries : CleanupEntries}

theorem observeCandidate_backed (h : EntriesBacked config (last :: completed) entries)
    (hbounded : entries.len ≤ config.maxCandidates) (hnew : entries.lookup key = none)
    (hadmitted : key ∈ last.admitted) (hseen : (key, .reclaimable) ∈ last.classified) :
    EntriesBacked config (last :: completed)
        (CleanupState.observeCandidate config last.leaderTerm last.endedAt entries key) ∧
      (CleanupState.observeCandidate config last.leaderTerm last.endedAt entries key).len ≤
        config.maxCandidates := by
  simp only [observeCandidate, hnew]
  split
  · exact ⟨h, hbounded⟩
  · next hroom =>
      constructor
      · intro key' entry hentry
        rw [lookup_insert_eq] at hentry
        split at hentry
        · next heq =>
            rw [← Option.some.inj hentry, heq]
            exact .ofAdmission _ _ hadmitted hseen
        · exact h key' entry hentry
      · rw [len_insert _ hnew]
        omega

theorem observeCandidate_of_ne {other : ReplicaKey} (term now : ℕ) (hne : other ≠ key) :
    (CleanupState.observeCandidate config term now entries key).lookup other =
      entries.lookup other := by
  simp only [observeCandidate]
  split
  · rw [lookup_insert_eq, if_neg hne]
  · split
    · rfl
    · rw [lookup_insert_eq, if_neg hne]

theorem observeCandidates_backed (pending : List ReplicaKey)
    (h : EntriesBacked config (last :: completed) entries)
    (hbounded : entries.len ≤ config.maxCandidates) (hnodup : pending.Nodup)
    (hpending : ∀ key ∈ pending, entries.lookup key = none ∧ key ∈ last.admitted ∧ (key,
      .reclaimable) ∈ last.classified) : EntriesBacked config (last :: completed)
        (pending.foldl (observeCandidate config last.leaderTerm last.endedAt) entries) ∧
      (pending.foldl (observeCandidate config last.leaderTerm last.endedAt)
        entries).len ≤ config.maxCandidates := by
  induction pending generalizing entries with
  | nil => exact ⟨h, hbounded⟩
  | cons key rest ih =>
    rcases hpending key mem_cons_self with ⟨hnew, hadmitted, hseen⟩
    rcases observeCandidate_backed h hbounded hnew hadmitted hseen with ⟨hbacked, hlen⟩
    rcases nodup_cons.1 hnodup with ⟨hnot, hnodup⟩
    refine ih hbacked hlen hnodup fun other hother => ?_
    have hne : other ≠ key := fun heq => hnot (heq ▸ hother)
    rw [observeCandidate_of_ne _ _ hne]
    exact hpending other (mem_cons_of_mem _ hother)

theorem commitCycle_backed (last : CompleteCycle) {cycle : CleanupScanCycle}
    (hcycle : CycleSound config last.classified entries cycle)
    (h : EntriesBacked config completed entries) (hadmitted : last.admitted = cycle.pendingNew) :
    EntriesBacked config (last :: completed)
        (CleanupState.commitCycle config last.leaderTerm last.endedAt entries cycle) ∧
      (CleanupState.commitCycle config last.leaderTerm last.endedAt entries cycle).len ≤
        config.maxCandidates := by
  unfold commitCycle
  refine observeCandidates_backed cycle.pendingNew ?_ ?_ hcycle.nodup ?_
  · intro key entry hentry
    rw [lookup_filterMap, lookup_filterMap] at hentry
    rcases hlookup : entries.lookup key with _ | old
    · rw [hlookup] at hentry
      cases hentry
    · rw [hlookup] at hentry
      by_cases hseen : key ∈ cycle.seenExisting
      · simp only [Option.bind_some, hseen, if_true] at hentry
        rw [← Option.some.inj hentry]
        exact (h key old hlookup).verify (hcycle.seen key hseen)
      · simp only [Option.bind_some, hseen, if_false, Option.bind_none, reduceCtorEq] at hentry
  · have hlen := len_filterMap_le
      (fun _ entry => some { entry with verifiedTerm := last.leaderTerm })
      (filterMap (fun key entry => if key ∈ cycle.seenExisting then some entry else none) entries)
    have hlen' := len_filterMap_le
      (fun key entry => if key ∈ cycle.seenExisting then some entry else none) entries
    have hbounded := hcycle.bounded
    omega
  · intro key hkey
    rw [lookup_filterMap, lookup_filterMap, hcycle.apart key hkey, hadmitted]
    exact ⟨rfl, hkey, hcycle.pending key hkey⟩

end Complete

/-! ## Runs -/

theorem takePage_cases (config : BlockCleanupConfig) (readings : ScanReadings)
    (state : CleanupState) : (∃ answer, state.takePage config readings = .error answer ∧
      (answer.2 = state ∨ answer.2 = state.dropCycle ∨ answer.2 = .default)) ∨
    ∃ page scanTerm, state.takePage config readings = .ok (page, state.activeRange scanTerm) ∧
      page.readings = readings := by
  unfold takePage
  split
  · exact .inl ⟨_, rfl, .inl rfl⟩
  · split
    · exact .inl ⟨_, rfl, .inr (.inl rfl)⟩
    · split
      · exact .inl ⟨_, rfl, .inr (.inr rfl)⟩
      · split
        · exact .inl ⟨_, rfl, .inr (.inl rfl)⟩
        · simp only
          split
          · exact .inl ⟨_, rfl, .inr (.inr rfl)⟩
          · exact .inr ⟨_, _, rfl, rfl⟩

/-- The candidates are traced and bounded, and so is the cycle that is under way; every page was
taken in the term of its cycle. -/
structure CleanupWorld.Sound (config : BlockCleanupConfig) (world : CleanupWorld) : Prop where
  backed : EntriesBacked config world.completed world.state.entries
  bounded : world.state.entries.len ≤ config.maxCandidates
  cycle : ∀ cycle ∈ world.state.activeCycle,
    CycleSound config (world.pages.flatMap TakenPage.classified) world.state.entries cycle
  terms : ∀ cycle ∈ world.state.activeCycle, ∀ page ∈ world.pages,
    page.scanTerm = cycle.leaderTerm
  complete : ∀ cycle ∈ world.completed, ∀ page ∈ cycle.pages, page.scanTerm = cycle.leaderTerm

/-- What stands behind a selection at `now` in `term`: the cycle that admitted the replica ended
at least the grace period ago, the replica was to be reclaimed in that cycle and in every
complete one since, and one of these cycles is of the term. -/
def Verified (config : BlockCleanupConfig) (completed : List CompleteCycle) (key : ReplicaKey)
    (term now : ℕ) : Prop :=
  ∃ newer admission older, completed = newer ++ admission :: older ∧
    key ∈ admission.admitted ∧ admission.endedAt + config.reclaimGrace ≤ now ∧
    (∀ cycle ∈ newer ++ [admission], cycle.Reclaims key) ∧
    ∃ cycle ∈ newer ++ [admission], cycle.leaderTerm = term

namespace CleanupWorld

variable {config : BlockCleanupConfig} {world : CleanupWorld}

theorem new_sound : new.Sound config := by
  refine ⟨fun key entry hentry => ?_, Nat.zero_le _, fun cycle hcycle => ?_,
    fun cycle hcycle => ?_, fun cycle hcycle => ?_⟩
  · cases hentry
  · cases hcycle
  · cases hcycle
  · cases hcycle

section

variable (h : world.Sound config)
include h

theorem Sound.drop {state : CleanupState} (taken : Option TakenPage)
    (hwithin : Within state.entries world.state.entries)
    (hlen : state.entries.len ≤ world.state.entries.len)
    (hcycle : ∀ cycle ∈ state.activeCycle, cycle ∈ world.state.activeCycle) :
    Sound config { world with state := state, taken := taken } :=
  ⟨h.backed.within hwithin, hlen.trans h.bounded, fun cycle hmem =>
    (h.cycle cycle (hcycle cycle hmem)).fewer (fun _ => hwithin.lookup_eq_none) hlen,
    fun cycle hmem => h.terms cycle (hcycle cycle hmem), h.complete⟩

theorem Sound.dropCycle (taken : Option TakenPage) :
    Sound config { world with state := world.state.dropCycle, taken := taken } := by
  refine h.drop taken (fun _ _ hentry => hentry) le_rfl fun cycle hcycle => ?_
  cases hcycle

theorem Sound.clear (taken : Option TakenPage) :
    Sound config { world with state := .default, taken := taken } := by
  refine h.drop taken (fun key entry hentry => ?_) (Nat.zero_le _) fun cycle hcycle => ?_
  · cases hentry
  · cases hcycle

theorem Sound.clearEntries :
    Sound config { world with state := world.state.clearEntries } := by
  refine h.drop world.taken (fun key entry hentry => ?_) (Nat.zero_le _) fun _ hcycle => hcycle
  cases hentry

theorem Sound.removeEntry (key : ReplicaKey) :
    Sound config { world with state := world.state.removeEntry key } :=
  h.drop world.taken (within_erase _ key) (len_erase_le _ key) fun _ hcycle => hcycle

theorem Sound.selectDue (key : ReplicaKey) (term now : ℕ) :
    Sound config { world with state := (world.state.selectDue config key term now).2 } := by
  unfold CleanupState.selectDue
  rcases hentry : world.state.entries.lookup key with _ | entry
  · exact h
  · simp only
    split
    · refine ⟨fun key' entry' hentry' => ?_, (len_replace _ hentry).trans_le h.bounded,
        fun cycle hcycle => ?_, h.terms, h.complete⟩
      · rw [lookup_insert_eq] at hentry'
        split at hentry'
        · next heq =>
            rw [← Option.some.inj hentry', heq]
            exact h.backed key entry hentry
        · exact h.backed key' entry' hentry'
      · refine (h.cycle cycle hcycle).fewer (fun key' hnone => ?_)
          (len_replace _ hentry).le
        have hne : key' ≠ key := by
          intro heq
          rw [heq, hentry] at hnone
          cases hnone
        rw [lookup_insert_eq, if_neg hne]
        exact hnone
    · exact h

/-! ## Scans -/

theorem Sound.takePage (readings : ScanReadings) :
    Sound config (world.takePage config readings) := by
  have hkeep (taken : Option TakenPage) : Sound config { world with taken := taken } :=
    h.drop taken (fun _ _ hentry => hentry) le_rfl fun _ hcycle => hcycle
  unfold CleanupWorld.takePage
  rcases takePage_cases config readings world.state with
    ⟨answer, htaken, hstate⟩ | ⟨page, scanTerm, htaken, -⟩
  · rw [htaken]
    simp only
    rcases hstate with hstate | hstate | hstate
    · rw [hstate]
      exact hkeep none
    · rw [hstate]
      exact h.dropCycle none
    · rw [hstate]
      exact h.clear none
  · rw [htaken]
    simp only [activeRange]
    split
    · exact h.dropCycle _
    · exact hkeep _

theorem Sound.cycleOf (scanTerm : ℕ) (scanEndWorkerId : Option WorkerId) :
    CycleSound config ((if world.state.activeCycle.isSome then world.pages else []).flatMap
      TakenPage.classified) world.state.entries (world.state.cycleOf scanTerm scanEndWorkerId) := by
  unfold CleanupState.cycleOf
  rcases hactive : world.state.activeCycle with _ | cycle
  · refine ⟨fun _ hkey => ?_, fun _ hkey => ?_, List.nodup_nil, fun _ hkey => ?_, h.bounded⟩
    · cases hkey
    · cases hkey
    · cases hkey
  · exact h.cycle cycle hactive

theorem Sound.withPage_terms {page : TakenPage}
    (hterm : (world.state.cycleOf page.scanTerm page.scanEndWorkerId).leaderTerm =
      page.scanTerm) : ∀ other ∈ world.withPage page, other.scanTerm = page.scanTerm := by
  intro other hother
  rcases List.mem_append.1 hother with hother | hother
  · unfold CleanupState.cycleOf at hterm
    rcases hactive : world.state.activeCycle with _ | cycle
    · rw [hactive] at hother
      cases hother
    · rw [hactive] at hother hterm
      exact (h.terms cycle hactive other hother).trans hterm
  · rw [List.mem_singleton.1 hother]

theorem Sound.applyPage : Sound config (world.applyPage config) := by
  unfold CleanupWorld.applyPage
  split
  · exact h
  · next page _ =>
      split
      · exact h.dropCycle none
      · have hpage := (h.cycleOf page.scanTerm page.scanEndWorkerId).applyDecisions page.classified
        have hpages : (world.withPage page).flatMap TakenPage.classified = _ ++ page.classified :=
          (flatMap_append ..).trans (by rw [flatMap_singleton])
        rw [← hpages] at hpage
        rcases hpage with ⟨hcycle, hwithin⟩
        simp only [applyScanPage]
        split
        · refine ⟨h.backed, h.bounded, fun cycle hmem => ?_, fun cycle hmem => ?_, h.complete⟩
          · cases hmem
          · cases hmem
        · next hsame =>
            have hterms := h.withPage_terms (not_not.1 (not_or.1 hsame).1)
            rcases page.nextCursor with _ | cursor
            · have hcommit := commitCycle_backed
                ⟨page.scanTerm, page.readings.now, world.withPage page, world.admits config page⟩
                hcycle (h.backed.within hwithin) rfl
              refine ⟨hcommit.1, hcommit.2, fun cycle hmem => ?_, fun cycle hmem => ?_,
                forall_mem_cons.2 ⟨hterms, h.complete⟩⟩
              · cases hmem
              · cases hmem
            · refine ⟨h.backed.within hwithin, (Nat.le_add_right _ _).trans hcycle.bounded,
                fun cycle hmem => ?_, fun cycle hmem => ?_, h.complete⟩
              · rw [← Option.some.inj hmem]
                exact ⟨hcycle.seen, hcycle.pending, hcycle.nodup, hcycle.apart, hcycle.bounded⟩
              · rw [← Option.some.inj hmem]
                intro other hother
                refine (hterms other hother).trans ?_
                exact ((applyDecisions_leaderTerm _).trans (not_not.1 (not_or.1 hsame).1)).symm

theorem Sound.endScan : Sound config world.endScan := by
  unfold CleanupWorld.endScan
  split
  · exact h
  · split
    · exact h.clear none
    · exact h.drop none (fun _ _ hentry => hentry) le_rfl fun _ hcycle => hcycle

omit h in
/-- A whole scan is its three parts. -/
theorem scanOnce_eq (world : CleanupWorld) (readings : ScanReadings) :
    (world.state.scanOnce config readings).2 =
      ((world.takePage config readings).applyPage config).endScan.state := by
  unfold scanOnce CleanupWorld.takePage
  rcases takePage_cases config readings world.state with
    ⟨answer, htaken, -⟩ | ⟨page, scanTerm, htaken, hreadings⟩
  · rw [htaken]
    rfl
  · rw [htaken]
    simp only [CleanupWorld.applyPage, hreadings]
    split
    · rfl
    · simp only [CleanupWorld.endScan, hreadings, TakenPage.classified]
      split <;> rfl

/-! ## Heartbeats -/

theorem Sound.verified {key : ReplicaKey} {term now : ℕ}
    (hselected : (world.state.selectDue config key term now).1 = true) :
    Verified config world.completed key term now := by
  unfold CleanupState.selectDue at hselected
  rcases hentry : world.state.entries.lookup key with _ | entry
  · rw [hentry] at hselected
    cases hselected
  · rw [hentry] at hselected
    simp only at hselected
    split at hselected
    · next hdue =>
        simp only [CleanupEntry.isDue, Bool.and_eq_true, decide_eq_true_eq] at hdue
        rcases hdue with ⟨⟨hterm, hgrace⟩, -⟩
        rcases h.backed key entry hentry with
          ⟨newer, admission, older, hcompleted, hadmitted, -, hnotBefore, hevery, hsome⟩
        rw [hnotBefore] at hgrace
        rw [hterm] at hsome
        refine ⟨newer, admission, older, hcompleted, hadmitted, hgrace, fun cycle hcycle => ?_,
          hsome⟩
        refine CompleteCycle.reclaims (h.complete cycle ?_) (hevery cycle hcycle)
        rw [hcompleted]
        rcases List.mem_append.1 hcycle with hcycle | hcycle
        · exact List.mem_append_left _ hcycle
        · exact List.mem_append_right _ (List.mem_singleton.1 hcycle ▸ List.mem_cons_self)
    · cases hselected

/-- Each command that the loop of a heartbeat adds is a selection. -/
theorem Sound.heartbeatLoop (term now : ℕ) (readings : ReplicaKey → KeyReadings)
    (keys : List ReplicaKey) (commands : List BlockCleanupCommand) :
    Sound config { world with
        state := (world.state.heartbeatLoop config term now readings keys commands).2 } ∧
      ∀ selected ∈ (world.state.heartbeatLoop config term now readings keys commands).1,
        ∀ command ∈ selected, command ∈ commands ∨
          ∃ key ∈ keys, command = ⟨key.blockId⟩ ∧ Verified config world.completed key term now := by
  induction keys generalizing world commands with
  | nil =>
    refine ⟨h, fun selected hselected command hcommand => ?_⟩
    rw [← Option.some.inj hselected] at hcommand
    exact .inl hcommand
  | cons key rest ih =>
    have hlater {state : CleanupState} (h' : Sound config { world with state := state }) :
        Sound config { world with
            state := (state.heartbeatLoop config term now readings rest commands).2 } ∧
          ∀ selected ∈ (state.heartbeatLoop config term now readings rest commands).1,
            ∀ command ∈ selected, command ∈ commands ∨ ∃ other ∈ key :: rest,
              command = ⟨other.blockId⟩ ∧ Verified config world.completed other term now := by
      refine ⟨(ih h' commands).1, fun selected hselected command hcommand => ?_⟩
      rcases (ih h' commands).2 selected hselected command hcommand with
        hold | ⟨other, hother, hnew⟩
      · exact .inl hold
      · exact .inr ⟨other, mem_cons_of_mem _ hother, hnew⟩
    have hremoved := hlater (h.removeEntry key)
    unfold heartbeatLoop
    split
    · refine ⟨h, fun selected hselected command hcommand => ?_⟩
      rw [← Option.some.inj hselected] at hcommand
      exact .inl hcommand
    · split
      · exact hremoved
      · exact hremoved
      · exact hremoved
      · split
        · refine ⟨h.clearEntries, fun selected hselected => ?_⟩
          cases hselected
        · split
          · exact hremoved
          · have hselect := h.selectDue key term now
            rcases hdue : (world.state.selectDue config key term now).1 with _ | _
            · simp only [hdue, Bool.false_eq_true, if_false]
              exact hlater hselect
            · have hrest := ih hselect (commands ++ [⟨key.blockId⟩])
              simp only [hdue, if_true]
              refine ⟨hrest.1, fun selected hselected command hcommand => ?_⟩
              rcases hrest.2 selected hselected command hcommand with
                hold | ⟨other, hother, hnew⟩
              · rcases mem_append.1 hold with hold | hself
                · exact .inl hold
                · exact .inr ⟨key, mem_cons_self, mem_singleton.1 hself, h.verified hdue⟩
              · exact .inr ⟨other, mem_cons_of_mem _ hother, hnew⟩

theorem Sound.commandsForHeartbeat (groupName : GroupName) (workerId : WorkerId)
    (workerRunId : WorkerRunId) (now : ℕ) (leaderTerm : Option ℕ)
    (readings : ReplicaKey → KeyReadings) (termAfterLoop : Option ℕ) :
    Sound config { world with
        state := (world.state.commandsForHeartbeat config groupName workerId workerRunId now
          leaderTerm readings termAfterLoop).2 } ∧
      ∀ command ∈ (world.state.commandsForHeartbeat config groupName workerId workerRunId now
          leaderTerm readings termAfterLoop).1, ∃ term, leaderTerm = some term ∧
        Verified config world.completed ⟨groupName, workerId, workerRunId, command.blockId⟩
          term now := by
  have hnone (command : BlockCleanupCommand) (hcommand : command ∈ []) : ∃ term,
      leaderTerm = some term ∧ Verified config world.completed
        ⟨groupName, workerId, workerRunId, command.blockId⟩ term now := by
    cases hcommand
  unfold CleanupState.commandsForHeartbeat
  split
  · exact ⟨h, hnone⟩
  · split
    · exact ⟨h, hnone⟩
    · next term =>
        have hloop := h.heartbeatLoop term now readings
          (world.state.dueKeys groupName workerId workerRunId term now) []
        split
        · next heq =>
            rw [heq] at hloop
            exact ⟨hloop.1, hnone⟩
        · next commands _ heq =>
            rw [heq] at hloop
            split
            · exact ⟨hloop.1.clearEntries, hnone⟩
            · refine ⟨hloop.1, fun command hcommand => ?_⟩
              rcases hloop.2 commands rfl command hcommand with
                hnil | ⟨key, hkey, hblock, hverified⟩
              · cases hnil
              · rcases List.mem_map.1 hkey with ⟨order, -, rfl⟩
                rw [hblock]
                exact ⟨term, rfl, hverified⟩

theorem Sound.after (step : CleanupStep) : Sound config (world.after config step) := by
  cases step with
  | scanOnce readings =>
    have hparts := ((h.takePage readings).applyPage).endScan
    simp only [CleanupWorld.after, scanOnce_eq]
    exact hparts
  | commandsForHeartbeat => exact (h.commandsForHeartbeat ..).1
  | takePage readings => exact h.takePage readings
  | applyPage => exact h.applyPage
  | endScan => exact h.endScan
  | clearEntries => exact h.clearEntries
  | removeEntry key => exact h.removeEntry key
  | selectDue key term now => exact h.selectDue key term now

end

end CleanupWorld

section Run

variable {config : BlockCleanupConfig} {world : CleanupWorld}
  {past : List (History.Transition CleanupWorld CleanupStep)}

theorem CleanupRun.sound (hrun : CleanupRun config past world) : world.Sound config := by
  refine hrun.invariant CleanupWorld.new_sound fun {_ _ label _} _ h _ hstep => ?_
  rw [hstep]
  exact h.after label

/-- The committed candidates and those of the cycle that is under way. -/
def CleanupState.candidates (state : CleanupState) : ℕ :=
  state.entries.len + state.activeCycle.elim 0 (·.pendingNew.length)

theorem CleanupRun.candidates_le (hrun : CleanupRun config past world) :
    world.state.candidates ≤ config.maxCandidates := by
  unfold candidates
  rcases hactive : world.state.activeCycle with _ | cycle
  · exact hrun.sound.bounded
  · exact (hrun.sound.cycle cycle hactive).bounded

/-- Whatever scans and heartbeats there are, one after the other or interleaved: there are never
more candidates than the limit; whatever is selected, by a whole heartbeat or by the part of one
that selects, was to be reclaimed in a complete cycle of the term and in all complete cycles
since it was admitted, and the grace period has passed. -/
theorem selections_verified (config : BlockCleanupConfig)
    {past : List (History.Transition CleanupWorld CleanupStep)} {world : CleanupWorld}
    (hrun : CleanupRun config past world) :
    world.state.candidates ≤ config.maxCandidates ∧
    (∀ groupName workerId workerRunId now leaderTerm readings termAfterLoop,
      ∀ command ∈ (world.state.commandsForHeartbeat config groupName workerId workerRunId now
          leaderTerm readings termAfterLoop).1, ∃ term, leaderTerm = some term ∧
        Verified config world.completed ⟨groupName, workerId, workerRunId, command.blockId⟩
          term now) ∧
    ∀ key term now, (world.state.selectDue config key term now).1 = true →
      Verified config world.completed key term now :=
  ⟨hrun.candidates_le, fun _ _ _ _ _ _ _ => (hrun.sound.commandsForHeartbeat ..).2,
    fun _ _ _ => hrun.sound.verified⟩

/-- A replica admitted by a cycle of two pages in term 1 and seen again in term 2. -/
theorem selections_verified_two_terms :
    let groupName : GroupName := ⟨"g", by decide⟩
    let config : BlockCleanupConfig := ⟨true, groupName, 10, 4, 8, 1, 5⟩
    let key : ReplicaKey := ⟨groupName, 1, 7, ⟨3, 0⟩⟩
    let scan (term now : ℕ) (replicas : List ReplicaKey) (next : Option ReadyReplicaCursor) :=
      CleanupStep.scanOnce ⟨some term, .ok (), some term, some 2, fun _ _ => .ok (replicas, next),
        now, fun _ => .ok .reclaimable, some term, some term⟩
    let first := CleanupWorld.new.after config (scan 1 100 [key] (some ⟨1, some ⟨3, 0⟩, none⟩))
    let second := first.after config (scan 1 105 [] none)
    let third := second.after config (scan 2 108 [key] none)
    (third.state.commandsForHeartbeat config groupName 1 7 115 (some 2)
        (fun _ => ⟨.ok .reclaimable, some 2, true⟩) (some 2)).1 = [⟨⟨3, 0⟩⟩] ∧
      third.completed.map (·.endedAt) = [108, 105] ∧ Verified config third.completed key 2 115 := by
  intro groupName config key scan first second third
  have hrun : CleanupRun config _ third :=
    ((History.Run.start.next trivial rfl).next trivial rfl).next trivial rfl
  refine ⟨by decide +kernel, by decide +kernel, ?_⟩
  exact (selections_verified config hrun).2.2 key 2 115 (by decide +kernel)

end Run

end Beryl
