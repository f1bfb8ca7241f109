import Beryl.SessionCalls

/-!
# The derived indexes of the session registry

The primary maps hold the sessions; every index is a function of them.  This module
says which function, and shows that inserting, removing and replacing one session
keeps every index equal to it and never runs into an assertion.
-/

namespace Beryl

open Transaction Registry HashMap OrderedTable WriteSessionEntry

/-! ## Counting expiries along a path -/

/-- What one session with this expiry and this captured path adds to the count of
inode `ancestor` at time `at`. -/
def occupies (expiresAtMs : ℕ) (chain : List InodeId) (ancestor : InodeId) (time : ℕ) : ℕ :=
  if expiresAtMs = time ∧ ancestor ∈ chain then 1 else 0

/-- The activity map holds these counts, and nothing where there is none. -/
structure Mirrors (activity : AncestorActivity) (load : InodeId → ℕ → ℕ) : Prop where
  counts : ∀ ancestor time,
    ((activity.lookup ancestor).getD .empty).get time = counted (load ancestor time)
  nonempty : ∀ ancestor, activity.lookup ancestor ≠ some .empty

namespace Mirrors

variable {activity : AncestorActivity} {load load' : InodeId → ℕ → ℕ} {ancestor : InodeId}

theorem congr (h : Mirrors activity load) (hload : ∀ a t, load' a t = load a t) :
    Mirrors activity load' := by
  have heq : load' = load := funext fun a => funext fun t => hload a t
  rw [heq]
  exact h

theorem lookup_of_pos {time : ℕ} (h : Mirrors activity load) (hpos : 0 < load ancestor time) :
    ∃ expirations, activity.lookup ancestor = some expirations := by
  cases hlookup : activity.lookup ancestor with
  | some expirations => exact ⟨expirations, rfl⟩
  | none =>
    have hcount := h.counts ancestor time
    obtain ⟨count, hcount'⟩ := Nat.exists_eq_succ_of_ne_zero hpos.ne'
    rw [hlookup, hcount'] at hcount
    cases hcount

variable {expirations : OrderedTable ℕ ℕ}

theorem get_of_lookup (h : Mirrors activity load)
    (hlookup : activity.lookup ancestor = some expirations) (time : ℕ) :
    expirations.get time = counted (load ancestor time) := by
  have hcount := h.counts ancestor time
  rw [hlookup] at hcount
  exact hcount

theorem insert (h : Mirrors activity load) (hothers : ∀ a t, a ≠ ancestor → load' a t = load a t)
    (hcounts : ∀ t, expirations.get t = counted (load' ancestor t)) (hne : expirations ≠ .empty) :
    Mirrors (activity.insert ancestor expirations) load' := by
  constructor
  · intro a t
    rw [lookup_insert_eq]
    by_cases ha : a = ancestor
    · rw [if_pos ha, ha]
      exact hcounts t
    · rw [if_neg ha, hothers a t ha]
      exact h.counts a t
  · intro a
    rw [lookup_insert_eq]
    by_cases ha : a = ancestor
    · rw [if_pos ha]
      intro heq
      exact hne (Option.some.inj heq)
    · rw [if_neg ha]
      exact h.nonempty a

theorem erase (h : Mirrors activity load) (hothers : ∀ a t, a ≠ ancestor → load' a t = load a t)
    (hzero : ∀ t, load' ancestor t = 0) : Mirrors (activity.erase ancestor) load' := by
  constructor
  · intro a t
    rw [lookup_erase_eq]
    by_cases ha : a = ancestor
    · rw [if_pos ha, ha, hzero t]
      rfl
    · rw [if_neg ha, hothers a t ha]
      exact h.counts a t
  · intro a
    rw [lookup_erase_eq]
    by_cases ha : a = ancestor
    · rw [if_pos ha]
      exact nofun
    · rw [if_neg ha]
      exact h.nonempty a

end Mirrors

theorem get_incrementExpiryCount {expirations : OrderedTable ℕ ℕ} {count : ℕ → ℕ}
    (h : ∀ t, expirations.get t = counted (count t)) (expiresAtMs time : ℕ) :
    (incrementExpiryCount expirations expiresAtMs).get time =
      counted (count time + if time = expiresAtMs then 1 else 0) := by
  unfold incrementExpiryCount
  rw [get_put]
  by_cases htime : time = expiresAtMs
  · rw [if_pos htime, if_pos htime, h expiresAtMs, counted_getD, htime, counted_succ]
  · rw [if_neg htime, if_neg htime, Nat.add_zero]
    exact h time

theorem incrementExpiryCount_ne_empty (expirations : OrderedTable ℕ ℕ) (expiresAtMs : ℕ) :
    incrementExpiryCount expirations expiresAtMs ≠ .empty := by
  intro h
  have hget := congrArg (fun table => table.get expiresAtMs) h
  simp [incrementExpiryCount] at hget

variable {expiresAtMs : ℕ}

theorem decrementExpiryCount_eq {expirations : OrderedTable ℕ ℕ} {count count' : ℕ → ℕ}
    (h : ∀ t, expirations.get t = counted (count t))
    (hcount : ∀ t, count t = count' t + if t = expiresAtMs then 1 else 0) :
    ∃ expirations', decrementExpiryCount expirations expiresAtMs = .ok expirations' ∧
      ∀ t, expirations'.get t = counted (count' t) := by
  have hat : expirations.get expiresAtMs = counted (count' expiresAtMs + 1) := by
    rw [h, hcount, if_pos rfl]
  unfold decrementExpiryCount
  rw [hat, counted_succ]
  have hothers : ∀ t, t ≠ expiresAtMs → expirations.get t = counted (count' t) := by
    intro t ht
    rw [h, hcount, if_neg ht, Nat.add_zero]
  cases hrest : count' expiresAtMs with
  | zero =>
    refine ⟨_, rfl, fun t => ?_⟩
    rw [get_delete]
    by_cases ht : t = expiresAtMs
    · rw [if_pos ht, ht, hrest, counted_zero]
    · rw [if_neg ht, hothers t ht]
  | succ =>
    refine ⟨_, rfl, fun t => ?_⟩
    rw [get_put]
    by_cases ht : t = expiresAtMs
    · rw [if_pos ht, ht, hrest, counted_succ]
    · rw [if_neg ht, hothers t ht]

variable {chain : List InodeId} {head : InodeId}

theorem occupies_cons (hnew : head ∉ chain) (expiresAtMs : ℕ)
    (ancestor : InodeId) (time : ℕ) : occupies expiresAtMs (head :: chain) ancestor time =
      (if ancestor = head ∧ time = expiresAtMs then 1 else 0) +
        occupies expiresAtMs chain ancestor time := by
  unfold occupies
  by_cases htime : time = expiresAtMs
  · by_cases hhead : ancestor = head
    · simp [htime, hhead, hnew]
    · simp [htime, hhead]
  · simp [htime, Ne.symm htime]

theorem addAncestors_mirrors (hnodup : chain.Nodup) (expiresAtMs : ℕ) :
    ∀ {activity : AncestorActivity} {load : InodeId → ℕ → ℕ}, Mirrors activity load →
      Mirrors (addAncestors expiresAtMs chain activity)
        (fun a t => load a t + occupies expiresAtMs chain a t) := by
  induction chain with
  | nil =>
    intro activity load h
    exact h.congr fun a t => by simp [occupies]
  | cons head rest ih =>
    intro activity load h
    obtain ⟨hnew, hrest⟩ := List.nodup_cons.1 hnodup
    have hstep : Mirrors
        (activity.insert head
          (incrementExpiryCount ((activity.lookup head).getD .empty) expiresAtMs))
        (fun a t => load a t + if a = head ∧ t = expiresAtMs then 1 else 0) := by
      apply h.insert
      · intro a t ha
        simp [ha]
      · intro t
        rw [get_incrementExpiryCount (h.counts head)]
        simp
      · exact incrementExpiryCount_ne_empty _ _
    exact (ih hrest hstep).congr fun a t => by
      rw [occupies_cons hnew, Nat.add_assoc]

theorem Mirrors.decrement_head {activity : AncestorActivity} {load load' : InodeId → ℕ → ℕ}
    (h : Mirrors activity load) (hnew : head ∉ chain)
    (hload : ∀ a t, load a t = load' a t + occupies expiresAtMs (head :: chain) a t) :
    ∃ expirations expirations', activity.lookup head = some expirations ∧
      decrementExpiryCount expirations expiresAtMs = .ok expirations' ∧
      (∀ t, expirations'.get t = counted (load' head t + occupies expiresAtMs chain head t)) ∧
      ∀ a t, a ≠ head → load' a t + occupies expiresAtMs chain a t = load a t := by
  have hload' : ∀ a t, load a t = load' a t + occupies expiresAtMs chain a t +
      if a = head ∧ t = expiresAtMs then 1 else 0 := by
    intro a t
    rw [hload, occupies_cons hnew]
    omega
  have hpos : 0 < load head expiresAtMs := by
    rw [hload' head expiresAtMs]
    simp
  obtain ⟨expirations, hlookup⟩ := h.lookup_of_pos hpos
  have hcount : ∀ t, load head t =
      (fun t => load' head t + occupies expiresAtMs chain head t) t +
        if t = expiresAtMs then 1 else 0 := by
    intro t
    rw [hload' head t]
    simp only [true_and]
  obtain ⟨expirations', hdecrement, hcounts⟩ :=
    decrementExpiryCount_eq (h.get_of_lookup hlookup) hcount
  refine ⟨expirations, expirations', hlookup, hdecrement, hcounts, fun a t ha => ?_⟩
  rw [hload' a t, if_neg fun hand => ha hand.1, Nat.add_zero]

theorem releaseAncestors_mirrors (hnodup : chain.Nodup) (missing : String) (expiresAtMs : ℕ) :
    ∀ {activity : AncestorActivity} {load load' : InodeId → ℕ → ℕ}, Mirrors activity load →
      (∀ a t, load a t = load' a t + occupies expiresAtMs chain a t) →
      ∃ activity', releaseAncestors missing expiresAtMs chain activity = .ok activity' ∧
        Mirrors activity' load' := by
  induction chain with
  | nil =>
    intro activity load load' h hload
    exact ⟨activity, rfl, h.congr fun a t => by simp [hload, occupies]⟩
  | cons head rest ih =>
    intro activity load load' h hload
    obtain ⟨hnew, hrest⟩ := List.nodup_cons.1 hnodup
    obtain ⟨expirations, expirations', hlookup, hdecrement, hcounts, hothers⟩ :=
      h.decrement_head hnew hload
    unfold releaseAncestors
    simp only [hlookup, hdecrement]
    have hstep : Mirrors
        (if expirations'.entries = [] then activity.erase head
          else activity.insert head expirations')
        (fun a t => load' a t + occupies expiresAtMs rest a t) := by
      by_cases hempty : expirations'.entries = []
      · rw [if_pos hempty]
        have hzero : ∀ t, expirations'.get t = none := by
          intro t
          unfold OrderedTable.get
          rw [hempty]
          rfl
        apply h.erase
        · exact hothers
        · intro t
          have hcount := hcounts t
          rw [hzero t] at hcount
          unfold counted at hcount
          split at hcount
          next hz => exact hz
          next => cases hcount
      · rw [if_neg hempty]
        apply h.insert
        · exact hothers
        · exact hcounts
        · intro heq
          exact hempty (congrArg OrderedTable.entries heq)
    exact ih hrest hstep fun a t => rfl

theorem moveAncestors_mirrors (hnodup : chain.Nodup) (previous next : ℕ) :
    ∀ {activity : AncestorActivity} {load load' : InodeId → ℕ → ℕ}, Mirrors activity load →
      (∀ a t, load a t = load' a t + occupies previous chain a t) →
      ∃ activity', moveAncestors previous next chain activity = .ok activity' ∧
        Mirrors activity' (fun a t => load' a t + occupies next chain a t) := by
  induction chain with
  | nil =>
    intro activity load load' h hload
    refine ⟨activity, rfl, h.congr fun a t => ?_⟩
    rw [hload]
    simp [occupies]
  | cons head rest ih =>
    intro activity load load' h hload
    obtain ⟨hnew, hrest⟩ := List.nodup_cons.1 hnodup
    obtain ⟨expirations, expirations', hlookup, hdecrement, hcounts, hothers⟩ :=
      h.decrement_head hnew hload
    unfold moveAncestors
    simp only [hlookup, hdecrement]
    have hstep : Mirrors (activity.insert head (incrementExpiryCount expirations' next))
        (fun a t => load' a t + (if a = head ∧ t = next then 1 else 0) +
          occupies previous rest a t) := by
      apply h.insert
      · intro a t ha
        rw [← hothers a t ha, if_neg (fun hand => ha hand.1)]
        omega
      · intro t
        rw [get_incrementExpiryCount hcounts]
        congr 1
        simp only [true_and]
        omega
      · exact incrementExpiryCount_ne_empty _ _
    obtain ⟨activity', hmove, hmirrors⟩ := ih hrest hstep (fun a t => rfl)
    refine ⟨activity', hmove, hmirrors.congr fun a t => ?_⟩
    rw [occupies_cons hnew, Nat.add_assoc]

/-! ## What the indexes should hold -/

/-- The primary state: the sessions, the create openings and the next identities. -/
structure SessionBook where
  entries : HashMap InodeId WriteSessionEntry
  createOpenings : HashMap CreateFileOperationId CreateOpeningSession
  nextOpeningId : ℕ
  nextPublicationId : ℕ

namespace SessionBook

def clientLoad (book : SessionBook) (clientId : ClientId) : ℕ :=
  book.entries.total (fun entry => if entry.clientId = clientId then 1 else 0) +
    book.createOpenings.total fun opening => if opening.openClientId = clientId then 1 else 0

/-- The sessions with this retirement time whose captured path contains an inode. -/
def ancestorLoad (book : SessionBook) (ancestor : InodeId) (time : ℕ) : ℕ :=
  book.entries.total
      (fun entry => occupies entry.retirementAtMs entry.ancestorInodeIds ancestor time) +
    book.createOpenings.total fun opening =>
      occupies opening.expiresAtMs opening.parentAncestorInodeIds ancestor time

def openingLoad (book : SessionBook) : ℕ :=
  book.entries.total fun entry => if entry.isOpening then 1 else 0

def targetLoad (book : SessionBook) : ℕ := book.entries.total WriteSessionEntry.ownedTargets

def pendingLoad (book : SessionBook) : ℕ := book.entries.total WriteSessionEntry.pendingTargets

def insertEntry (book : SessionBook) (entry : WriteSessionEntry) : SessionBook :=
  { book with entries := book.entries.insert entry.inodeId entry }

def eraseEntry (book : SessionBook) (inodeId : InodeId) : SessionBook :=
  { book with entries := book.entries.erase inodeId }

def insertCreate (book : SessionBook) (opening : CreateOpeningSession) : SessionBook :=
  { book with createOpenings := book.createOpenings.insert opening.operationId opening }

def eraseCreate (book : SessionBook) (operationId : CreateFileOperationId) : SessionBook :=
  { book with createOpenings := book.createOpenings.erase operationId }

theorem lookup_eraseCreate (book : SessionBook) (operationId operationId' : CreateFileOperationId) :
    (book.eraseCreate operationId).createOpenings.lookup operationId' =
      if operationId' = operationId then none else book.createOpenings.lookup operationId' :=
  lookup_erase_eq _ _ _

theorem lookup_eraseEntry (book : SessionBook) (inodeId inodeId' : InodeId) :
    (book.eraseEntry inodeId).entries.lookup inodeId' =
      if inodeId' = inodeId then none else book.entries.lookup inodeId' :=
  lookup_erase_eq _ _ _

def putEntry (book : SessionBook) (inodeId : InodeId) (entry : WriteSessionEntry) :
    SessionBook :=
  { book with entries := book.entries.insert inodeId entry }

variable {book : SessionBook} {entry entry' : WriteSessionEntry}
  {opening : CreateOpeningSession} {inodeId : InodeId} {operationId : CreateFileOperationId}

section

variable (h : book.entries.lookup entry.inodeId = none)
include h

theorem clientLoad_insertEntry (c : ClientId) : (book.insertEntry entry).clientLoad c =
      book.clientLoad c + if entry.clientId = c then 1 else 0 := by
  simp only [clientLoad, insertEntry, total_insert entry h]
  omega

theorem ancestorLoad_insertEntry (a : InodeId) (t : ℕ) : (book.insertEntry entry).ancestorLoad a t =
      book.ancestorLoad a t + occupies entry.retirementAtMs entry.ancestorInodeIds a t := by
  simp only [ancestorLoad, insertEntry, total_insert entry h]
  omega

theorem openingLoad_insertEntry :
    (book.insertEntry entry).openingLoad = book.openingLoad + if entry.isOpening then 1 else 0 :=
  total_insert entry h

theorem targetLoad_insertEntry :
    (book.insertEntry entry).targetLoad = book.targetLoad + entry.ownedTargets :=
  total_insert entry h

theorem pendingLoad_insertEntry :
    (book.insertEntry entry).pendingLoad = book.pendingLoad + entry.pendingTargets :=
  total_insert entry h

end

section

variable (h : book.entries.lookup inodeId = some entry)
include h

theorem openingLoad_eraseEntry :
    (book.eraseEntry inodeId).openingLoad + (if entry.isOpening then 1 else 0) = book.openingLoad :=
  total_erase h

theorem targetLoad_eraseEntry :
    (book.eraseEntry inodeId).targetLoad + entry.ownedTargets = book.targetLoad :=
  total_erase h

theorem pendingLoad_eraseEntry :
    (book.eraseEntry inodeId).pendingLoad + entry.pendingTargets = book.pendingLoad :=
  total_erase h

theorem clientLoad_eraseEntry (c : ClientId) : book.clientLoad c =
      (book.eraseEntry inodeId).clientLoad c + if entry.clientId = c then 1 else 0 := by
  simp only [clientLoad, eraseEntry, ← total_erase h]
  omega

theorem ancestorLoad_eraseEntry
    (a : InodeId) (t : ℕ) : book.ancestorLoad a t = (book.eraseEntry inodeId).ancestorLoad a t +
        occupies entry.retirementAtMs entry.ancestorInodeIds a t := by
  simp only [ancestorLoad, eraseEntry, ← total_erase h]
  omega

end

theorem clientLoad_insertCreate
    (h : book.createOpenings.lookup opening.operationId = none) (c : ClientId) :
    (book.insertCreate opening).clientLoad c =
      book.clientLoad c + if opening.openClientId = c then 1 else 0 := by
  simp only [clientLoad, insertCreate, total_insert opening h, Nat.add_assoc]

theorem ancestorLoad_insertCreate
    (h : book.createOpenings.lookup opening.operationId = none) (a : InodeId) (t : ℕ) :
    (book.insertCreate opening).ancestorLoad a t = book.ancestorLoad a t +
      occupies opening.expiresAtMs opening.parentAncestorInodeIds a t := by
  simp only [ancestorLoad, insertCreate, total_insert opening h, Nat.add_assoc]

theorem clientLoad_eraseCreate
    (h : book.createOpenings.lookup operationId = some opening) (c : ClientId) : book.clientLoad c =
      (book.eraseCreate operationId).clientLoad c + if opening.openClientId = c then 1 else 0 := by
  simp only [clientLoad, eraseCreate, ← total_erase h, Nat.add_assoc]

theorem ancestorLoad_eraseCreate
    (h : book.createOpenings.lookup operationId = some opening) (a : InodeId) (t : ℕ) :
    book.ancestorLoad a t = (book.eraseCreate operationId).ancestorLoad a t +
      occupies opening.expiresAtMs opening.parentAncestorInodeIds a t := by
  simp only [ancestorLoad, eraseCreate, ← total_erase h, Nat.add_assoc]

end SessionBook

namespace SessionRegistryState

def book (state : SessionRegistryState) : SessionBook :=
  ⟨state.entries, state.createOpenings, state.nextOpeningId, state.nextPublicationId⟩

@[simp] theorem book_entries (state : SessionRegistryState) :
    state.book.entries = state.entries := rfl

structure Indexed (state : SessionRegistryState) : Prop where
  clients : ∀ clientId,
    state.occupiedSessionsByClient.lookup clientId = counted (state.book.clientLoad clientId)
  ancestors : Mirrors state.ancestorActivity state.book.ancestorLoad
  expiries : EntriesListed state.entriesByExpiry
    (fun inodeId entry => toLex (entry.retirementAtMs, inodeId)) state.entries
  createExpiries : EntriesListed state.createOpeningsByExpiry
    (fun _ opening => toLex (opening.expiresAtMs, opening.openingId)) state.createOpenings
  createOperations : Inverts state.createOpeningOperations
    (fun opening => some opening.openingId) state.createOpenings
  paths : Inverts state.createOpeningsByPath
    (fun opening => some (opening.mountId, opening.normalizedPath)) state.createOpenings
  activeCreates : Inverts state.activeCreateOperations
    WriteSessionEntry.createOperation state.entries
  openings : state.openingSessions = state.book.openingLoad
  outstanding : state.outstandingWriteTargets = state.book.targetLoad
  pending : state.pendingWriteTargets = state.book.pendingLoad

theorem default_indexed : SessionRegistryState.default.Indexed where
  clients _ := rfl
  ancestors := ⟨fun _ _ => rfl, fun _ => nofun⟩
  expiries _ := ⟨nofun, fun ⟨_, _, h, _⟩ => nomatch h⟩
  createExpiries _ := ⟨nofun, fun ⟨_, _, h, _⟩ => nomatch h⟩
  createOperations _ _ := ⟨nofun, fun ⟨_, h, _⟩ => nomatch h⟩
  paths _ _ := ⟨nofun, fun ⟨_, h, _⟩ => nomatch h⟩
  activeCreates _ _ := ⟨nofun, fun ⟨_, h, _⟩ => nomatch h⟩
  openings := rfl
  outstanding := rfl
  pending := rfl

end SessionRegistryState

/-! ## Tables of client counts -/

variable {table : HashMap ClientId ℕ} {load load' : ClientId → ℕ} {client : ClientId}

theorem counts_increment (h : ∀ c, table.lookup c = counted (load c))
    (hload : ∀ c, load' c = load c + if client = c then 1 else 0) (c : ClientId) :
    (table.insert client ((table.lookup client).getD 0 + 1)).lookup c = counted (load' c) := by
  rw [lookup_insert_eq, hload]
  by_cases hc : c = client
  · rw [if_pos hc, h, counted_getD, if_pos hc.symm, hc, counted_succ]
  · rw [if_neg hc, if_neg (Ne.symm hc), Nat.add_zero, h]

theorem counts_decrement (h : ∀ c, table.lookup c = counted (load c))
    (hload : ∀ c, load c = load' c + if client = c then 1 else 0) :
    ∃ count, table.lookup client = some (count + 1) ∧ ∀ c, (if count = 0 then table.erase client
        else table.insert client count).lookup c = counted (load' c) := by
  have hothers : ∀ c, c ≠ client → table.lookup c = counted (load' c) := by
    intro c hc
    rw [h, hload, if_neg (Ne.symm hc), Nat.add_zero]
  refine ⟨load' client, ?_, fun c => ?_⟩
  · rw [h, hload, if_pos rfl, counted_succ]
  · by_cases hzero : load' client = 0
    · rw [if_pos hzero, lookup_erase_eq]
      by_cases hc : c = client
      · rw [if_pos hc, hc, hzero, counted_zero]
      · rw [if_neg hc, hothers c hc]
    · rw [if_neg hzero, lookup_insert_eq]
      by_cases hc : c = client
      · rw [if_pos hc, hc, counted, if_neg hzero]
      · rw [if_neg hc, hothers c hc]

/-! ## Stepping through assertions -/

section Steps

variable {E α β : Type} {state : SessionRegistryState} {message : String}
  {activity : AncestorActivity} {count : ℕ} {inodeId : InodeId}

theorem assertThat_bind {condition : Prop} [Decidable condition] {f : Unit → Registry E α}
    (h : condition) : (assertThat condition message >>= f) state = f () state := by
  unfold assertThat failIf
  rw [if_neg (not_not_intro h)]
  rfl

theorem expect_bind {value : Option β} {found : β} {f : β → Registry E α} (h : value = some found) :
    (expect value message >>= f) state = f found state := by
  subst h
  rfl

theorem recordSessionGauges_run (h : state.openingSessions ≤ state.entries.len) :
    (recordSessionGauges : Registry E Unit) state = (.ok (), state) := by
  unfold recordSessionGauges assertThat failIf
  rw [current_bind, if_neg (not_not_intro h)]
  rfl

theorem recordWriteTargetGauges_run
    (h : state.pendingWriteTargets ≤ state.outstandingWriteTargets) :
    (recordWriteTargetGauges : Registry E Unit) state = (.ok (), state) := by
  unfold recordWriteTargetGauges assertThat failIf
  rw [current_bind, if_neg (not_not_intro h)]
  rfl

theorem setActivity_run {change : AncestorActivity → Except String AncestorActivity}
    (h : change state.ancestorActivity = .ok activity) :
    (setActivity change : Registry E Unit) state =
      (.ok (), { state with ancestorActivity := activity }) := by
  unfold setActivity
  rw [current_bind, h]
  rfl

theorem releaseOpening_run (h : 1 ≤ state.openingSessions) :
    (releaseOpening message : Registry E Unit) state =
      (.ok (), { state with openingSessions := state.openingSessions - 1 }) := by
  unfold releaseOpening
  rw [current_bind, assertThat_bind h]
  rfl

theorem releaseOutstanding_run (h : count ≤ state.outstandingWriteTargets) :
    (releaseOutstanding count message : Registry E Unit) state =
      (.ok (), { state with
        outstandingWriteTargets := state.outstandingWriteTargets - count }) := by
  unfold releaseOutstanding
  rw [current_bind, assertThat_bind h]
  rfl

theorem releasePending_run (h : count ≤ state.pendingWriteTargets) :
    (releasePending count message : Registry E Unit) state =
      (.ok (), { state with pendingWriteTargets := state.pendingWriteTargets - count }) := by
  unfold releasePending
  rw [current_bind, assertThat_bind h]
  rfl

theorem removeEntryExpiry_run {time : ℕ}
    (h : state.entriesByExpiry.get (toLex (time, inodeId)) = some ()) :
    (removeEntryExpiry time inodeId message : Registry E Unit) state =
      (.ok (), { state with
        entriesByExpiry := state.entriesByExpiry.delete (toLex (time, inodeId)) }) := by
  unfold removeEntryExpiry
  rw [current_bind, assertThat_bind h]
  rfl

theorem decrementClientOccupancy_run {clientId : ClientId}
    (h : state.occupiedSessionsByClient.lookup clientId = some (count + 1)) :
    (decrementClientOccupancy clientId : Registry E Unit) state =
      (.ok (), { state with
        occupiedSessionsByClient :=
          if count = 0 then state.occupiedSessionsByClient.erase clientId
          else state.occupiedSessionsByClient.insert clientId count }) := by
  unfold decrementClientOccupancy
  rw [current_bind, expect_bind h, assertThat_bind (Nat.succ_pos count)]
  rfl

theorem removeFromIndexes_run {entry : WriteSessionEntry}
    (hexpiry : state.entriesByExpiry.get (toLex (entry.retirementAtMs, inodeId)) = some ())
    (hrelease : releaseAncestors "write session ancestor index must exist" entry.retirementAtMs
      entry.ancestorInodeIds state.ancestorActivity = .ok activity) :
    (removeFromIndexes inodeId entry : Registry E Unit) state =
      (.ok (), { state with
        entriesByExpiry := state.entriesByExpiry.delete (toLex (entry.retirementAtMs, inodeId))
        ancestorActivity := activity }) := by
  unfold removeFromIndexes
  rw [bind_of_ok (removeEntryExpiry_run hexpiry)]
  exact setActivity_run hrelease

theorem moveExpiryIndexes_run {ancestors : List InodeId} {previous next : ℕ}
    (hexpiry : state.entriesByExpiry.get (toLex (previous, inodeId)) = some ())
    (hmove : moveAncestors previous next ancestors state.ancestorActivity = .ok activity) :
    (moveExpiryIndexes inodeId ancestors previous next : Registry E Unit) state =
      (.ok (), { state with
        entriesByExpiry := (state.entriesByExpiry.delete (toLex (previous, inodeId))).put
          (toLex (next, inodeId)) ()
        ancestorActivity := activity }) := by
  unfold moveExpiryIndexes insertEntryExpiry
  rw [bind_of_ok (removeEntryExpiry_run hexpiry), update_bind]
  exact setActivity_run hmove

end Steps

section CreateOperations

variable {E : Type} {state : SessionRegistryState} {inodeId : InodeId}
  {entry : WriteSessionEntry} {entries : HashMap InodeId WriteSessionEntry}

theorem bindCreateOperation_run
    (h : Inverts state.activeCreateOperations createOperation entries)
    (hnew : entries.lookup inodeId = none)
    (hfree : ∀ operationId, entry.createOperation = some operationId →
      state.activeCreateOperations.lookup operationId = none) :
    ∃ active, (bindCreateOperation inodeId entry.createOperation : Registry E Unit) state =
        (.ok (), { state with activeCreateOperations := active }) ∧
      Inverts active createOperation (entries.insert inodeId entry) := by
  cases hoperation : entry.createOperation with
  | none => exact ⟨state.activeCreateOperations, rfl, h.insert_none hnew hoperation⟩
  | some operationId =>
    have hnone := hfree operationId hoperation
    refine ⟨state.activeCreateOperations.insert operationId inodeId, ?_,
      h.insert hnew hoperation hnone⟩
    simp only [bindCreateOperation]
    rw [current_bind, assertThat_bind hnone]
    rfl

theorem unbindCreateOperation_run
    (h : Inverts state.activeCreateOperations createOperation entries)
    (hentry : entries.lookup inodeId = some entry) :
    ∃ active, (unbindCreateOperation inodeId entry.createOperation : Registry E Unit) state =
        (.ok (), { state with activeCreateOperations := active }) ∧
      Inverts active createOperation (entries.erase inodeId) := by
  cases hoperation : entry.createOperation with
  | none => exact ⟨state.activeCreateOperations, rfl, h.erase_none hentry hoperation⟩
  | some operationId =>
    have hsome := (h operationId inodeId).2 ⟨entry, hentry, hoperation⟩
    refine ⟨state.activeCreateOperations.erase operationId, ?_, h.erase hentry hoperation⟩
    simp only [unbindCreateOperation]
    rw [current_bind, assertThat_bind hsome]
    rfl

end CreateOperations

/-! ## Inserting and removing one session -/

theorem pendingTargets_le (entry : WriteSessionEntry) :
    entry.pendingTargets ≤ entry.ownedTargets := by
  cases entry with
  | opening => exact le_refl 0
  | active => exact Nat.le_add_left _ _

theorem isOpening_le_one (book : SessionBook) : book.openingLoad ≤ book.entries.len := by
  unfold SessionBook.openingLoad
  rw [len_eq_total]
  apply total_mono
  intro entry
  split
  · exact le_refl 1
  · exact Nat.zero_le 1

theorem pendingLoad_le (book : SessionBook) : book.pendingLoad ≤ book.targetLoad :=
  total_mono pendingTargets_le

namespace SessionRegistryState.Indexed

variable {E : Type} {state : SessionRegistryState}

theorem gauges (h : state.Indexed) :
    (recordSessionGauges : Registry E Unit) state = (.ok (), state) := by
  apply recordSessionGauges_run
  rw [h.openings]
  exact isOpening_le_one state.book

theorem targetGauges (h : state.Indexed) :
    (recordWriteTargetGauges : Registry E Unit) state = (.ok (), state) := by
  apply recordWriteTargetGauges_run
  rw [h.pending, h.outstanding]
  exact pendingLoad_le state.book

theorem insertEntry_run (h : state.Indexed) (entry : WriteSessionEntry)
    (hnew : state.entries.lookup entry.inodeId = none) (hchain : entry.ancestorInodeIds.Nodup)
    (hcreate : ∀ operationId, entry.createOperation = some operationId →
      state.activeCreateOperations.lookup operationId = none) (htargets : entry.ownedTargets = 0) :
    ∃ state', (insertEntry entry : Registry E Unit) state = (.ok (), state') ∧
      state'.Indexed ∧ state'.book = state.book.insertEntry entry := by
  have hpending : entry.pendingTargets = 0 := by
    have hle := pendingTargets_le entry
    omega
  have hbook : state.book.entries.lookup entry.inodeId = none := hnew
  have hexpiry : state.entriesByExpiry.get (toLex (entry.retirementAtMs, entry.inodeId)) =
      none := by
    cases hget : state.entriesByExpiry.get (toLex (entry.retirementAtMs, entry.inodeId)) with
    | none => rfl
    | some =>
      obtain ⟨inodeId, found, hfound, hitem⟩ := (h.expiries _).1 hget
      rw [toLex_inj, Prod.mk.injEq] at hitem
      rw [hitem.2, hnew] at hfound
      cases hfound
  let indexed : SessionRegistryState := { state with
    ancestorActivity :=
      addAncestors entry.retirementAtMs entry.ancestorInodeIds state.ancestorActivity
    entriesByExpiry :=
      state.entriesByExpiry.put (toLex (entry.retirementAtMs, entry.inodeId)) ()
    openingSessions := state.openingSessions + if entry.isOpening then 1 else 0
    occupiedSessionsByClient := state.occupiedSessionsByClient.insert entry.clientId
      ((state.occupiedSessionsByClient.lookup entry.clientId).getD 0 + 1) }
  have hbind : ∃ active, (bindCreateOperation entry.inodeId entry.createOperation :
      Registry E Unit) indexed = (.ok (), { indexed with activeCreateOperations := active }) ∧
      Inverts active createOperation
        (state.entries.insert entry.inodeId entry) :=
    bindCreateOperation_run h.activeCreates hnew hcreate
  obtain ⟨active, hbind, hactive⟩ := hbind
  have hindexed : SessionRegistryState.Indexed { indexed with
      activeCreateOperations := active
      entries := state.entries.insert entry.inodeId entry } := by
    constructor
    · exact counts_increment h.clients (SessionBook.clientLoad_insertEntry hbook)
    · exact (addAncestors_mirrors hchain entry.retirementAtMs h.ancestors).congr
        (SessionBook.ancestorLoad_insertEntry hbook)
    · exact h.expiries.insert hnew
    · exact h.createExpiries
    · exact h.createOperations
    · exact h.paths
    · exact hactive
    · have hload := SessionBook.openingLoad_insertEntry hbook
      rw [← h.openings] at hload
      exact hload.symm
    · have hload := SessionBook.targetLoad_insertEntry hbook
      rw [← h.outstanding, htargets] at hload
      exact hload.symm
    · have hload := SessionBook.pendingLoad_insertEntry hbook
      rw [← h.pending, hpending] at hload
      exact hload.symm
  have hset : (setActivity fun activity =>
      .ok (addAncestors entry.retirementAtMs entry.ancestorInodeIds activity) :
      Registry E Unit) state = (.ok (), { state with
        ancestorActivity :=
          addAncestors entry.retirementAtMs entry.ancestorInodeIds state.ancestorActivity }) :=
    setActivity_run rfl
  refine ⟨_, ?_, hindexed, rfl⟩
  unfold insertEntry
  rw [bind_of_ok hset, current_bind, assertThat_bind hexpiry]
  unfold insertEntryExpiry incrementClientOccupancy
  rw [update_bind, update_bind, update_bind, bind_of_ok hbind, current_bind, assertThat_bind hnew,
    update_bind]
  exact hindexed.gauges

variable {inodeId : InodeId} {entry entry' : WriteSessionEntry}

theorem removeEntry_run (h : state.Indexed) (hentry : state.entries.lookup inodeId = some entry)
    (hchain : entry.ancestorInodeIds.Nodup) :
    ∃ state', (removeEntry inodeId : Registry E _) state = (.ok (some entry), state') ∧
      state'.Indexed ∧ state'.book = state.book.eraseEntry inodeId := by
  have hbook : state.book.entries.lookup inodeId = some entry := hentry
  have hopening := SessionBook.openingLoad_eraseEntry hbook
  have htarget := SessionBook.targetLoad_eraseEntry hbook
  have hpending := SessionBook.pendingLoad_eraseEntry hbook
  rw [← h.openings] at hopening
  rw [← h.outstanding] at htarget
  rw [← h.pending] at hpending
  obtain ⟨count, hcount, hclients⟩ :=
    counts_decrement h.clients (SessionBook.clientLoad_eraseEntry hbook)
  obtain ⟨activity, hrelease, hmirrors⟩ :=
    releaseAncestors_mirrors hchain "write session ancestor index must exist"
      entry.retirementAtMs h.ancestors (SessionBook.ancestorLoad_eraseEntry hbook)
  have hexpiry : state.entriesByExpiry.get (toLex (entry.retirementAtMs, inodeId)) =
      some () := (h.expiries _).2 ⟨inodeId, entry, hentry, rfl⟩
  let erased : SessionRegistryState := { state with entries := state.entries.erase inodeId }
  have hunbind : ∃ active, (unbindCreateOperation inodeId entry.createOperation :
      Registry E Unit) erased = (.ok (), { erased with activeCreateOperations := active }) ∧
      Inverts active createOperation (state.entries.erase inodeId) :=
    unbindCreateOperation_run h.activeCreates hentry
  obtain ⟨active, hunbind, hactive⟩ := hunbind
  let unbound : SessionRegistryState := { erased with activeCreateOperations := active }
  let closed : SessionRegistryState := { unbound with
    openingSessions := state.openingSessions - if entry.isOpening then 1 else 0 }
  let unlisted : SessionRegistryState := { closed with
    entriesByExpiry := state.entriesByExpiry.delete (toLex (entry.retirementAtMs, inodeId))
    ancestorActivity := activity }
  let vacated : SessionRegistryState := { unlisted with
    occupiedSessionsByClient :=
      if count = 0 then state.occupiedSessionsByClient.erase entry.clientId
      else state.occupiedSessionsByClient.insert entry.clientId count }
  let released : SessionRegistryState := { vacated with
    outstandingWriteTargets := state.outstandingWriteTargets - entry.ownedTargets }
  let removed : SessionRegistryState := { released with
    pendingWriteTargets := state.pendingWriteTargets - entry.pendingTargets }
  have hindexed : removed.Indexed := by
    constructor
    · exact hclients
    · exact hmirrors
    · exact h.expiries.erase hentry fun _ _ _ hitem => (Prod.mk.inj (toLex_inj.1 hitem)).2
    · exact h.createExpiries
    · exact h.createOperations
    · exact h.paths
    · exact hactive
    · exact Nat.sub_eq_of_eq_add hopening.symm
    · exact Nat.sub_eq_of_eq_add htarget.symm
    · exact Nat.sub_eq_of_eq_add hpending.symm
  refine ⟨removed, ?_, hindexed, rfl⟩
  have hcapacity : 0 < (state.occupiedSessionsByClient.lookup entry.clientId).getD 0 := by
    rw [hcount]
    exact Nat.succ_pos count
  have hclosed : (releaseEntryOpening entry : Registry E Unit) unbound = (.ok (), closed) := by
    unfold releaseEntryOpening
    cases hkind : entry.isOpening with
    | false => simp [closed, unbound, erased, hkind, pure]
    | true =>
      rw [hkind, if_pos rfl] at hopening
      have hone : 1 ≤ unbound.openingSessions := by
        change 1 ≤ state.openingSessions
        omega
      rw [if_pos rfl, releaseOpening_run hone]
      simp [closed, unbound, erased, hkind]
  have hunlisted : (removeFromIndexes inodeId entry : Registry E Unit) closed =
      (.ok (), unlisted) := removeFromIndexes_run hexpiry hrelease
  have hvacated : (decrementClientOccupancy entry.clientId : Registry E Unit) unlisted =
      (.ok (), vacated) := decrementClientOccupancy_run hcount
  have hreleased : (releaseOutstanding entry.ownedTargets
      "removed session targets must be included in global occupancy" : Registry E Unit)
      vacated = (.ok (), released) := by
    apply releaseOutstanding_run
    change entry.ownedTargets ≤ state.outstandingWriteTargets
    omega
  have hremoved : (releasePending entry.pendingTargets
      "removed session pending target must be included in pending occupancy" :
      Registry E Unit) released = (.ok (), removed) := by
    apply releasePending_run
    change entry.pendingTargets ≤ state.pendingWriteTargets
    omega
  have hunindex : (unindexEntry inodeId entry : Registry E Unit) erased = (.ok (), removed) := by
    unfold unindexEntry
    rw [bind_of_ok hunbind, bind_of_ok hclosed, bind_of_ok hunlisted, bind_of_ok hvacated,
      bind_of_ok hreleased, bind_of_ok hremoved, bind_of_ok hindexed.gauges]
    exact hindexed.targetGauges
  unfold removeEntry
  rw [current_bind]
  simp only [hentry]
  rw [assertThat_bind hcapacity, update_bind, bind_of_ok hunindex]
  rfl

theorem insertCreateOpening_run (h : state.Indexed) (opening : CreateOpeningSession)
    (hnew : state.createOpenings.lookup opening.operationId = none)
    (hpath : state.createOpeningsByPath.lookup (opening.mountId, opening.normalizedPath) = none)
    (hid : state.createOpeningOperations.lookup opening.openingId = none)
    (hchain : opening.parentAncestorInodeIds.Nodup) :
    ∃ state', (insertCreateOpening opening : Registry E Unit) state = (.ok (), state') ∧
      state'.Indexed ∧ state'.book = state.book.insertCreate opening := by
  have hbook : state.book.createOpenings.lookup opening.operationId = none := hnew
  have hexpiry : state.createOpeningsByExpiry.get
      (toLex (opening.expiresAtMs, opening.openingId)) = none := by
    cases hget : state.createOpeningsByExpiry.get
        (toLex (opening.expiresAtMs, opening.openingId)) with
    | none => rfl
    | some =>
      obtain ⟨operationId, found, hfound, hitem⟩ := (h.createExpiries _).1 hget
      rw [toLex_inj, Prod.mk.injEq] at hitem
      rw [(h.createOperations _ _).2 ⟨found, hfound, congrArg some hitem.2⟩] at hid
      cases hid
  let bound : SessionRegistryState := { state with
    createOpeningsByPath := state.createOpeningsByPath.insert
      (opening.mountId, opening.normalizedPath) opening.operationId }
  let counted : SessionRegistryState := { bound with
    ancestorActivity :=
      addAncestors opening.expiresAtMs opening.parentAncestorInodeIds state.ancestorActivity }
  let inserted : SessionRegistryState := { counted with
    createOpeningsByExpiry := state.createOpeningsByExpiry.put
      (toLex (opening.expiresAtMs, opening.openingId)) ()
    createOpeningOperations :=
      state.createOpeningOperations.insert opening.openingId opening.operationId
    occupiedSessionsByClient := state.occupiedSessionsByClient.insert opening.openClientId
      ((state.occupiedSessionsByClient.lookup opening.openClientId).getD 0 + 1)
    createOpenings := state.createOpenings.insert opening.operationId opening }
  have hindexed : inserted.Indexed := by
    constructor
    · exact counts_increment h.clients (SessionBook.clientLoad_insertCreate hbook)
    · exact (addAncestors_mirrors hchain opening.expiresAtMs h.ancestors).congr
        (SessionBook.ancestorLoad_insertCreate hbook)
    · exact h.expiries
    · exact h.createExpiries.insert hnew
    · exact h.createOperations.insert hnew rfl hid
    · exact h.paths.insert hnew rfl hpath
    · exact h.activeCreates
    · exact h.openings
    · exact h.outstanding
    · exact h.pending
  have hcounted : (setActivity fun activity => .ok (addAncestors opening.expiresAtMs
      opening.parentAncestorInodeIds activity) : Registry E Unit) bound =
      (.ok (), counted) := setActivity_run rfl
  refine ⟨inserted, ?_, hindexed, rfl⟩
  unfold insertCreateOpening incrementClientOccupancy
  rw [current_bind, assertThat_bind hpath, update_bind, bind_of_ok hcounted, current_bind,
    assertThat_bind hexpiry, update_bind, current_bind, assertThat_bind hid, update_bind,
    update_bind, current_bind, assertThat_bind hnew, update_bind]
  exact hindexed.gauges

theorem removeCreateOpening_run (h : state.Indexed) {operationId : CreateFileOperationId}
    {opening : CreateOpeningSession}
    (hfound : state.createOpenings.lookup operationId = some opening)
    (hchain : opening.parentAncestorInodeIds.Nodup) :
    ∃ state', (removeCreateOpening operationId : Registry E _) state =
        (.ok (some opening), state') ∧
      state'.Indexed ∧ state'.book = state.book.eraseCreate operationId := by
  have hbook : state.book.createOpenings.lookup operationId = some opening := hfound
  obtain ⟨count, hcount, hclients⟩ :=
    counts_decrement h.clients (SessionBook.clientLoad_eraseCreate hbook)
  obtain ⟨activity, hrelease, hmirrors⟩ :=
    releaseAncestors_mirrors hchain "create opening ancestor index must exist"
      opening.expiresAtMs h.ancestors (SessionBook.ancestorLoad_eraseCreate hbook)
  have hpath : state.createOpeningsByPath.lookup (opening.mountId, opening.normalizedPath) =
      some operationId := (h.paths _ _).2 ⟨opening, hfound, rfl⟩
  have hexpiry : state.createOpeningsByExpiry.get
      (toLex (opening.expiresAtMs, opening.openingId)) = some () :=
    (h.createExpiries _).2 ⟨operationId, opening, hfound, rfl⟩
  have hid : state.createOpeningOperations.lookup opening.openingId = some operationId :=
    (h.createOperations _ _).2 ⟨opening, hfound, rfl⟩
  let unlisted : SessionRegistryState := { state with
    createOpenings := state.createOpenings.erase operationId
    createOpeningsByPath := state.createOpeningsByPath.erase
      (opening.mountId, opening.normalizedPath)
    createOpeningsByExpiry := state.createOpeningsByExpiry.delete
      (toLex (opening.expiresAtMs, opening.openingId))
    createOpeningOperations := state.createOpeningOperations.erase opening.openingId }
  let released : SessionRegistryState := { unlisted with ancestorActivity := activity }
  let removed : SessionRegistryState := { released with
    occupiedSessionsByClient :=
      if count = 0 then state.occupiedSessionsByClient.erase opening.openClientId
      else state.occupiedSessionsByClient.insert opening.openClientId count }
  have hindexed : removed.Indexed := by
    constructor
    · exact hclients
    · exact hmirrors
    · exact h.expiries
    · apply h.createExpiries.erase hfound
      intro operationId' found hfound' hitem
      exact h.createOperations.unique hfound hfound' rfl
        (congrArg some (Prod.mk.inj (toLex_inj.1 hitem)).2)
    · exact h.createOperations.erase hfound rfl
    · exact h.paths.erase hfound rfl
    · exact h.activeCreates
    · exact h.openings
    · exact h.outstanding
    · exact h.pending
  have hreleased : (setActivity (releaseAncestors "create opening ancestor index must exist"
      opening.expiresAtMs opening.parentAncestorInodeIds) : Registry E Unit) unlisted =
      (.ok (), released) := setActivity_run hrelease
  have hremoved : (decrementClientOccupancy opening.openClientId : Registry E Unit) released =
      (.ok (), removed) := decrementClientOccupancy_run hcount
  have hunindex : (unindexCreateOpening operationId opening : Registry E Unit)
      { state with createOpenings := state.createOpenings.erase operationId } =
      (.ok (), removed) := by
    unfold unindexCreateOpening
    rw [current_bind, assertThat_bind hpath, update_bind, current_bind, assertThat_bind hexpiry,
      update_bind, current_bind, assertThat_bind hid, update_bind, bind_of_ok hreleased,
      bind_of_ok hremoved]
    exact hindexed.gauges
  refine ⟨removed, ?_, hindexed, rfl⟩
  unfold removeCreateOpening
  rw [current_bind]
  simp only [hfound]
  rw [update_bind, bind_of_ok hunindex]
  rfl

theorem next (h : state.Indexed) (nextOpeningId nextPublicationId : ℕ) :
    SessionRegistryState.Indexed { state with
      nextOpeningId := nextOpeningId
      nextPublicationId := nextPublicationId } :=
  ⟨h.clients, h.ancestors, h.expiries, h.createExpiries, h.createOperations, h.paths,
    h.activeCreates, h.openings, h.outstanding, h.pending⟩

/-! ## Replacing one session -/

/-- An entry is replaced by one of the same client, path and create operation; the
expiry indexes and the counters follow. -/
theorem replaceEntry (h : state.Indexed) {index : OrderedTable (ℕ ×ₗ InodeId) Unit}
    {activity : AncestorActivity} {openings outstanding pending : ℕ}
    (hentry : state.entries.lookup inodeId = some entry)
    (hclient : entry'.clientId = entry.clientId)
    (hcreate : entry'.createOperation = entry.createOperation)
    (hindex : EntriesListed index (fun inodeId entry => toLex (entry.retirementAtMs, inodeId))
      (state.entries.insert inodeId entry'))
    (hactivity : Mirrors activity (state.book.putEntry inodeId entry').ancestorLoad)
    (hopenings : openings + (if entry.isOpening then 1 else 0) =
      state.openingSessions + if entry'.isOpening then 1 else 0)
    (houtstanding : outstanding + entry.ownedTargets =
      state.outstandingWriteTargets + entry'.ownedTargets)
    (hpending : pending + entry.pendingTargets =
      state.pendingWriteTargets + entry'.pendingTargets) :
    SessionRegistryState.Indexed { state with
      entries := state.entries.insert inodeId entry'
      entriesByExpiry := index
      ancestorActivity := activity
      openingSessions := openings
      outstandingWriteTargets := outstanding
      pendingWriteTargets := pending } := by
  constructor
  · intro c
    have hload : (state.book.putEntry inodeId entry').clientLoad c = state.book.clientLoad c := by
      have htotal := total_replace (fun entry => if entry.clientId = c then 1 else 0) entry' hentry
      simp only [hclient] at htotal
      simp only [SessionBook.clientLoad, SessionBook.putEntry, book_entries]
      omega
    exact (h.clients c).trans (congrArg counted hload.symm)
  · exact hactivity
  · exact hindex
  · exact h.createExpiries
  · exact h.createOperations
  · exact h.paths
  · exact h.activeCreates.replace hentry hcreate
  · have htotal := total_replace (fun entry => if entry.isOpening then 1 else 0) entry' hentry
    have hload := h.openings
    simp only [SessionBook.openingLoad, book_entries] at hload ⊢
    omega
  · have htotal := total_replace ownedTargets entry' hentry
    have hload := h.outstanding
    simp only [SessionBook.targetLoad, book_entries] at hload ⊢
    omega
  · have htotal := total_replace pendingTargets entry' hentry
    have hload := h.pending
    simp only [SessionBook.pendingLoad, book_entries] at hload ⊢
    omega

theorem ancestors_keep (h : state.Indexed) (hentry : state.entries.lookup inodeId = some entry)
    (hpath : entry'.ancestorInodeIds = entry.ancestorInodeIds)
    (hretirement : entry'.retirementAtMs = entry.retirementAtMs) :
    Mirrors state.ancestorActivity (state.book.putEntry inodeId entry').ancestorLoad := by
  apply h.ancestors.congr
  intro a t
  have htotal := total_replace
    (fun entry => occupies entry.retirementAtMs entry.ancestorInodeIds a t) entry' hentry
  simp only [hpath, hretirement] at htotal
  simp only [SessionBook.ancestorLoad, SessionBook.putEntry, book_entries]
  omega

theorem ancestors_move (h : state.Indexed) (hentry : state.entries.lookup inodeId = some entry)
    (hchain : entry.ancestorInodeIds.Nodup)
    (hpath : entry'.ancestorInodeIds = entry.ancestorInodeIds) :
    ∃ activity, moveAncestors entry.retirementAtMs entry'.retirementAtMs
        entry.ancestorInodeIds state.ancestorActivity = .ok activity ∧
      Mirrors activity (state.book.putEntry inodeId entry').ancestorLoad := by
  have hbook : state.book.entries.lookup inodeId = some entry := hentry
  obtain ⟨activity, hmove, hmirrors⟩ := moveAncestors_mirrors hchain entry.retirementAtMs
    entry'.retirementAtMs h.ancestors (SessionBook.ancestorLoad_eraseEntry hbook)
  refine ⟨activity, hmove, hmirrors.congr fun a t => ?_⟩
  have htotal := total_replace
    (fun entry => occupies entry.retirementAtMs entry.ancestorInodeIds a t) entry' hentry
  have hbase := SessionBook.ancestorLoad_eraseEntry hbook a t
  simp only [hpath] at htotal
  simp only [SessionBook.ancestorLoad, SessionBook.putEntry, book_entries] at hbase ⊢
  omega

end SessionRegistryState.Indexed

end Beryl
