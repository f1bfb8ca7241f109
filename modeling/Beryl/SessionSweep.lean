import Beryl.SessionRun

/-!
# What the bounded sweep leaves

A sweep retires expired entries in the order of their deadlines, sessions before create openings
at a tie, and stops after a fixed number.  An expired entry therefore survives exactly if that many
entries are ahead of it.  The methods that begin a session look up the path of a create opening and
the session of a create operation after such a sweep only.
-/

namespace Beryl

open Transaction HashMap Registry

/-- The order in which the sweep takes its entries. -/
def NextExpiry.rank : NextExpiry → ℕ ×ₗ (InodeId ⊕ₗ WriteOpeningId)
  | .session time inodeId => toLex (time, toLex (.inl inodeId))
  | .create time openingId => toLex (time, toLex (.inr openingId))

namespace NextExpiry

variable {next item : NextExpiry}

theorem expiresAtMs_le (h : next.rank ≤ item.rank) : next.expiresAtMs ≤ item.expiresAtMs := by
  have htimes : ∀ x : NextExpiry, (ofLex x.rank).1 = x.expiresAtMs := by
    rintro (_ | _) <;> rfl
  rw [← htimes, ← htimes]
  exact Prod.Lex.monotone_fst _ _ h

theorem eq_of_rank_eq (h : next.rank = item.rank) : next = item := by
  cases next <;> cases item <;> simp_all [rank]

variable {time time' : ℕ} {inodeId inodeId' : InodeId} {openingId openingId' : WriteOpeningId}

@[simp] theorem session_le_session : (session time inodeId).rank ≤ (session time' inodeId').rank ↔
    toLex (time, inodeId) ≤ toLex (time', inodeId') := by
  simp [rank, Prod.Lex.toLex_le_toLex]

@[simp] theorem create_le_create : (create time openingId).rank ≤ (create time' openingId').rank ↔
    toLex (time, openingId) ≤ toLex (time', openingId') := by
  simp [rank, Prod.Lex.toLex_le_toLex]

@[simp] theorem session_le_create : (session time inodeId).rank ≤ (create time' openingId).rank ↔
    time ≤ time' := by
  simp [rank, Prod.Lex.toLex_le_toLex, ← le_iff_lt_or_eq]

@[simp] theorem create_le_session : (create time openingId).rank ≤ (session time' inodeId).rank ↔
    time < time' := by
  simp [rank, Prod.Lex.toLex_le_toLex]

end NextExpiry

namespace SessionBook

def Holds (book : SessionBook) : NextExpiry → Prop
  | .session time inodeId => ∃ entry, book.entries.lookup inodeId = some entry ∧
      entry.retirementAtMs = time
  | .create time openingId => ∃ operationId opening,
      book.createOpenings.lookup operationId = some opening ∧ opening.expiresAtMs = time ∧
      opening.openingId = openingId

def entryAhead (item : NextExpiry) (entry : WriteSessionEntry) : ℕ :=
  if (NextExpiry.session entry.retirementAtMs entry.inodeId).rank < item.rank then 1 else 0

def createAhead (item : NextExpiry) (opening : CreateOpeningSession) : ℕ :=
  if (NextExpiry.create opening.expiresAtMs opening.openingId).rank < item.rank then 1 else 0

/-- How many entries the sweep takes before this one. -/
def ahead (book : SessionBook) (item : NextExpiry) : ℕ :=
  HashMap.total (entryAhead item) book.entries +
    HashMap.total (createAhead item) book.createOpenings

theorem ahead_le_len (book : SessionBook) (item : NextExpiry) :
    book.ahead item ≤ book.entries.len + book.createOpenings.len := by
  rw [len_eq_total, len_eq_total]
  refine Nat.add_le_add (total_mono fun entry => ?_) (total_mono fun opening => ?_)
  · unfold entryAhead
    split <;> omega
  · unfold createAhead
    split <;> omega

variable {book book' : SessionBook} {next item : NextExpiry}

theorem Retires.ahead_add (h : book.Retires next book') (hcoherent : book.Coherent) :
    book'.ahead item + (if next.rank < item.rank then 1 else 0) = book.ahead item := by
  cases next with
  | session time inodeId =>
    obtain ⟨entry, hentry, rfl, rfl⟩ := h
    have herase : total (entryAhead item) (book.entries.erase inodeId) +
        entryAhead item entry = _ := total_erase hentry
    have hweight : entryAhead item entry =
        if (NextExpiry.session entry.retirementAtMs inodeId).rank < item.rank then 1 else 0 := by
      unfold entryAhead
      rw [hcoherent.inode hentry]
    rw [hweight] at herase
    simp only [ahead, eraseEntry]
    omega
  | create =>
    obtain ⟨operationId, opening, hopening, rfl, rfl, rfl⟩ := h
    have herase : total (createAhead item) (book.createOpenings.erase operationId) +
        createAhead item opening = _ := total_erase hopening
    have hweight : createAhead item opening = if (NextExpiry.create opening.expiresAtMs
        opening.openingId).rank < item.rank then 1 else 0 := rfl
    rw [hweight] at herase
    simp only [ahead, eraseCreate]
    omega

theorem Retires.holds_other (h : book.Retires next book') (hholds : book.Holds item)
    (hne : next ≠ item) : book'.Holds item := by
  cases next with
  | session =>
    obtain ⟨entry, hentry, rfl, rfl⟩ := h
    cases item with
    | session =>
      obtain ⟨entry', hentry', rfl⟩ := hholds
      refine ⟨entry', ?_, rfl⟩
      rw [lookup_eraseEntry, if_neg, hentry']
      rintro rfl
      cases hentry.symm.trans hentry'
      exact hne rfl
    | create => exact hholds
  | create =>
    obtain ⟨operationId, opening, hopening, rfl, rfl, rfl⟩ := h
    cases item with
    | session => exact hholds
    | create =>
      obtain ⟨operationId', opening', hopening', rfl, rfl⟩ := hholds
      refine ⟨operationId', opening', ?_, rfl, rfl⟩
      rw [lookup_eraseCreate, if_neg, hopening']
      rintro rfl
      cases hopening.symm.trans hopening'
      exact hne rfl

theorem Swept.create_of_some {nowMs : ℕ} {operationId : CreateFileOperationId}
    {opening : CreateOpeningSession} (h : Swept nowMs book book')
    (hopening : book'.createOpenings.lookup operationId = some opening) :
    book.createOpenings.lookup operationId = some opening := by
  rcases h.creates operationId with hsame | ⟨hnone, _⟩
  · exact hsame ▸ hopening
  · cases hnone.symm.trans hopening

theorem Swept.holds {nowMs : ℕ} (h : Swept nowMs book book') (hholds : book'.Holds item) :
    book.Holds item := by
  cases item with
  | session =>
    obtain ⟨entry, hentry, htime⟩ := hholds
    exact ⟨entry, h.lookup_of_some hentry, htime⟩
  | create =>
    obtain ⟨operationId, opening, hopening, hrest⟩ := hholds
    exact ⟨operationId, opening, h.create_of_some hopening, hrest⟩

theorem Swept.ahead_le {nowMs : ℕ} (h : Swept nowMs book book') (item : NextExpiry) :
    book'.ahead item ≤ book.ahead item := by
  exact Nat.add_le_add (total_le_of_lookup fun _ _ => h.lookup_of_some)
    (total_le_of_lookup fun _ _ => h.create_of_some)

/-- The entry is expired, and a sweep ends before it. -/
def OutOfReach (book : SessionBook) (nowMs : ℕ) (item : NextExpiry) : Prop :=
  book.Holds item ∧ item.expiresAtMs ≤ nowMs ∧
    maxExpiredSessionRetirementsPerCall ≤ book.ahead item

theorem ahead_eq_zero (hcoherent : book.Coherent)
    (hleast : ∀ other, book.Holds other → item.rank ≤ other.rank) : book.ahead item = 0 := by
  have hentries : total (entryAhead item) book.entries = 0 := by
    rw [total_eq_zero_iff]
    intro inodeId entry hentry
    refine if_neg (not_lt.2 (hleast (.session _ _) ⟨entry, ?_, rfl⟩))
    rw [hcoherent.inode hentry, hentry]
  have hcreates : total (createAhead item) book.createOpenings = 0 := by
    rw [total_eq_zero_iff]
    intro operationId opening hopening
    exact if_neg (not_lt.2 (hleast (.create _ _) ⟨operationId, opening, hopening, rfl, rfl⟩))
  unfold ahead
  rw [hentries, hcreates]

end SessionBook

namespace SessionRegistryState.Sound

variable {E : Type} {registry : SessionRegistry} {state state' : SessionRegistryState} {nowMs : ℕ}
  {item next : NextExpiry}

theorem not_holds_retired (h : state.Sound registry)
    (hretires : state.book.Retires item state'.book) : ¬state'.book.Holds item := by
  cases item with
  | session =>
    obtain ⟨entry, hentry, rfl, hbook⟩ := hretires
    rintro ⟨found, hfound, _⟩
    rw [hbook, SessionBook.lookup_eraseEntry, if_pos rfl] at hfound
    cases hfound
  | create =>
    obtain ⟨operationId, opening, hopening, rfl, rfl, hbook⟩ := hretires
    rintro ⟨operationId', found, hfound, _, hid⟩
    rw [hbook, SessionBook.lookup_eraseCreate] at hfound
    split at hfound
    · cases hfound
    next hother =>
      exact hother (h.indexed.createOperations.unique hopening hfound rfl (congrArg some hid))

/-- The sweep looks at the least of the entries that are there. -/
theorem nextExpiry_le (h : state.Sound registry) (hholds : state.book.Holds item) :
    ∃ next, nextExpiry state = some next ∧ next.rank ≤ item.rank := by
  unfold nextExpiry
  cases item with
  | session time inodeId =>
    obtain ⟨entry, hentry, rfl⟩ := hholds
    obtain ⟨⟨key, _⟩, hhead, hle⟩ := OrderedTable.exists_head_of_get
      ((h.indexed.expiries _).2 ⟨inodeId, entry, hentry, rfl⟩)
    have hfirst := Prod.Lex.monotone_fst _ _ hle
    rw [hhead]
    cases state.createOpeningsByExpiry.entries.head? with
    | none => exact ⟨_, rfl, by simpa using hle⟩
    | some =>
      dsimp only
      split
      next hbefore => exact ⟨_, rfl, by simpa using hbefore.trans_le hfirst⟩
      next => exact ⟨_, rfl, by simpa using hle⟩
  | create =>
    obtain ⟨operationId, opening, hopening, rfl, rfl⟩ := hholds
    obtain ⟨⟨key, _⟩, hhead, hle⟩ := OrderedTable.exists_head_of_get
      ((h.indexed.createExpiries _).2 ⟨operationId, opening, hopening, rfl⟩)
    have hfirst := Prod.Lex.monotone_fst _ _ hle
    rw [hhead]
    cases state.entriesByExpiry.entries.head? with
    | none => exact ⟨_, rfl, by simpa using hle⟩
    | some =>
      dsimp only
      split
      next => exact ⟨_, rfl, by simpa using hle⟩
      next hbefore => exact ⟨_, rfl, by simpa using (not_lt.1 hbefore).trans hfirst⟩

/-- A sweep takes an expired entry unless its budget ends before. -/
theorem retireLoop_holds (budget : ℕ) : ∀ {state : SessionRegistryState}, state.Sound registry →
    state.book.Holds item → item.expiresAtMs ≤ nowMs →
    ∃ retired state', (retireLoop nowMs budget : Registry E ℕ) state = (.ok retired, state') ∧
      (state'.book.Holds item ↔ budget ≤ state.book.ahead item) := by
  induction budget with
  | zero =>
    intro state h hholds _
    exact ⟨0, state, rfl, fun _ => Nat.zero_le _, fun _ => hholds⟩
  | succ budget ih =>
    intro state h hholds hexpired
    obtain ⟨next, hnext, hle⟩ := h.nextExpiry_le hholds
    have hdue : ¬next.expiresAtMs > nowMs := not_lt.2 ((next.expiresAtMs_le hle).trans hexpired)
    obtain ⟨mid, hrun, hsound, hretires⟩ := h.retireNext_run (E := E) hnext
    have hcount : mid.book.ahead item + (if next.rank < item.rank then 1 else 0) =
        state.book.ahead item := hretires.ahead_add h.coherent
    simp only [retireLoop]
    rw [current_bind, hnext]
    simp only [hdue, if_false]
    rw [bind_of_ok hrun]
    by_cases hsame : next = item
    · subst hsame
      obtain ⟨retired, state', hloop, hsound', hswept⟩ :=
        retireLoop_run (E := E) nowMs budget hsound
      have hzero : state.book.ahead next = 0 := by
        apply SessionBook.ahead_eq_zero h.coherent
        intro other hother
        obtain ⟨first, hfirst, hleast⟩ := h.nextExpiry_le hother
        cases hnext.symm.trans hfirst
        exact hleast
      refine ⟨retired + 1, state', ?_, ?_⟩
      · rw [bind_of_ok hloop]
        rfl
      · rw [hzero]
        exact iff_of_false (fun hheld => h.not_holds_retired hretires (hswept.holds hheld))
          (by simp)
    · have hlt : next.rank < item.rank :=
        lt_of_le_of_ne hle fun heq => hsame (NextExpiry.eq_of_rank_eq heq)
      obtain ⟨retired, state', hloop, hiff⟩ :=
        ih hsound (hretires.holds_other hholds hsame) hexpired
      refine ⟨retired + 1, state', ?_, ?_⟩
      · rw [bind_of_ok hloop]
        rfl
      · rw [hiff, ← hcount, if_pos hlt, Nat.add_le_add_iff_right]

theorem retireExpiredEntries_holds (h : state.Sound registry) {retired : ℕ}
    (hrun : (retireExpiredEntries nowMs : Registry E ℕ) state = (.ok retired, state'))
    (hexpired : item.expiresAtMs ≤ nowMs) :
    state'.book.Holds item ↔ state.book.OutOfReach nowMs item := by
  have hiff : state.book.Holds item → (state'.book.Holds item ↔
      maxExpiredSessionRetirementsPerCall ≤ state.book.ahead item) := by
    intro hholds
    obtain ⟨_, _, hrun', hiff⟩ := retireLoop_holds (E := E) maxExpiredSessionRetirementsPerCall h
      hholds hexpired
    cases hrun.symm.trans hrun'
    exact hiff
  constructor
  · intro hheld
    obtain ⟨_, _, hrun', _, hswept⟩ := h.retireExpiredEntries_run (E := E) nowMs
    cases hrun.symm.trans hrun'
    exact ⟨hswept.holds hheld, hexpired, (hiff (hswept.holds hheld)).1 hheld⟩
  · intro hout
    exact (hiff hout.1).2 hout.2.2

end SessionRegistryState.Sound

/-! ## Beginning sessions -/

namespace SessionRegistryState

/-- A create opening that has not expired holds the path. -/
def LivePath (state : SessionRegistryState) (nowMs : ℕ) (path : MountId × String) : Prop :=
  ∃ operationId opening, state.createOpenings.lookup operationId = some opening ∧
    (opening.mountId, opening.normalizedPath) = path ∧ nowMs < opening.expiresAtMs

/-- `Busy`, `PathBusy` and `Replay` are due to entries that have not expired. -/
structure BlamesLive (registry : SessionRegistry) (state : SessionRegistryState) (nowMs : ℕ) :
    Prop where
  busy : ∀ input, (beginSessionAt registry input nowMs state).1 = .error (.refused .busy) →
    (∃ entry, state.entries.lookup input.inodeId = some entry ∧ nowMs < entry.retirementAtMs) ∨
      state.LivePath nowMs (input.mountId, input.normalizedPath)
  pathBusy : ∀ input,
    (beginCreateSessionAt registry input nowMs state).1 = .error (.refused .pathBusy) →
      state.LivePath nowMs (input.mountId, input.normalizedPath)
  replay : ∀ input response,
    (beginCreateSessionAt registry input nowMs state).1 = .ok (.replay response) →
      ∃ inodeId entry, state.entries.lookup inodeId = some entry ∧
        entry.createOperation = some input.operationId ∧ nowMs < entry.retirementAtMs

/-- Every expired create opening, and every expired session of a create, is taken by one sweep. -/
structure InReach (state : SessionRegistryState) (nowMs : ℕ) : Prop where
  opening : ∀ operationId opening, state.createOpenings.lookup operationId = some opening →
    ¬state.book.OutOfReach nowMs (.create opening.expiresAtMs opening.openingId)
  session : ∀ inodeId entry operationId, state.entries.lookup inodeId = some entry →
    entry.createOperation = some operationId →
      ¬state.book.OutOfReach nowMs (.session entry.retirementAtMs inodeId)

theorem inReach_of_few {state : SessionRegistryState} (nowMs : ℕ)
    (h : state.entries.len + state.createOpenings.len < maxExpiredSessionRetirementsPerCall) :
    state.InReach nowMs := by
  have hnever (item : NextExpiry) : ¬state.book.OutOfReach nowMs item := fun hout =>
    absurd (hout.2.2.trans (state.book.ahead_le_len item)) (not_le.2 h)
  exact ⟨fun _ _ _ => hnever _, fun _ _ _ _ _ => hnever _⟩

/-- The state in which a method that begins a session looks its request up. -/
structure SweptFrom (registry : SessionRegistry) (state : SessionRegistryState) (nowMs : ℕ)
    (mid : SessionRegistryState) : Prop where
  sound : mid.Sound registry
  swept : SessionBook.Swept nowMs state.book mid.book
  expired : ∀ item, mid.book.Holds item → item.expiresAtMs ≤ nowMs →
    state.book.OutOfReach nowMs item

variable {E : Type} {registry : SessionRegistry} {state start mid : SessionRegistryState}
  {nowMs : ℕ}

theorem Sound.sweptFrom (h : start.Sound registry)
    (hstart : SessionBook.Swept nowMs state.book start.book) {retired : ℕ}
    (hrun : (retireExpiredEntries nowMs : Registry E ℕ) start = (.ok retired, mid)) :
    SweptFrom registry state nowMs mid := by
  obtain ⟨_, _, hrun', hmid, hswept⟩ := h.retireExpiredEntries_run (E := E) nowMs
  cases hrun.symm.trans hrun'
  refine ⟨hmid, hstart.trans hswept, fun item hheld hexpired => ?_⟩
  obtain ⟨hholds, _, hahead⟩ := (h.retireExpiredEntries_holds hrun hexpired).1 hheld
  exact ⟨hstart.holds hholds, hexpired, hahead.trans (hstart.ahead_le item)⟩

theorem SweptFrom.livePath (h : SweptFrom registry state nowMs mid) (hreach : state.InReach nowMs)
    {path : MountId × String} (hpath : mid.createOpeningsByPath.lookup path ≠ none) :
    state.LivePath nowMs path := by
  obtain ⟨operationId, hoperation⟩ := Option.ne_none_iff_exists'.1 hpath
  obtain ⟨opening, hopening, hkey⟩ := (h.sound.indexed.paths _ _).1 hoperation
  have hbefore := h.swept.create_of_some hopening
  refine ⟨operationId, opening, hbefore, Option.some.inj hkey, not_le.1 fun hexpired => ?_⟩
  exact hreach.opening operationId opening hbefore
    (h.expired _ ⟨operationId, opening, hopening, rfl, rfl⟩ hexpired)

theorem Sound.retireFor_sweptFrom (h : state.Sound registry) (inodeId : InodeId) (nowMs : ℕ) :
    ∃ mid, (retireFor inodeId nowMs : Registry E Unit) state = (.ok (), mid) ∧
      SweptFrom registry state nowMs mid ∧
      (∀ entry, mid.entries.lookup inodeId = some entry → nowMs < entry.retirementAtMs) ∧
      (state.entries.lookup inodeId = none → ∀ item, state.book.OutOfReach nowMs item →
        mid.book.Holds item) := by
  obtain ⟨_, start, hinode, hstart, hswept, hlive⟩ :=
    h.retireExpiredEntryForInode_run (E := E) inodeId nowMs
  obtain ⟨_, mid, hall, _, hswept'⟩ := hstart.retireExpiredEntries_run (E := E) nowMs
  refine ⟨mid, ?_, hstart.sweptFrom hswept hall, ?_, ?_⟩
  · unfold retireFor
    rw [bind_of_ok hinode, bind_of_ok hall]
    rfl
  · intro entry hentry
    exact hlive entry (hswept'.lookup_of_some hentry)
  · intro hnone item hout
    have hsame : start = state := by
      unfold retireExpiredEntryForInode at hinode
      rw [current_bind, hnone] at hinode
      exact (congrArg Prod.snd hinode).symm
    rw [hsame] at hall
    exact (h.retireExpiredEntries_holds hall hout.2.1).2 hout

theorem Sound.beginSessionAt_busy (h : state.Sound registry) (hreach : state.InReach nowMs)
    (input : BeginSessionInput) :
    Ensures (beginSessionAt registry input nowMs) state (fun _ _ => True)
      (fun exit _ => exit = .refused .busy →
        (∃ entry, state.entries.lookup input.inodeId = some entry ∧ nowMs < entry.retirementAtMs) ∨
          state.LivePath nowMs (input.mountId, input.normalizedPath)) := by
  unfold beginSessionAt
  cases hchain : validateAncestorChain input.inodeId input.ancestorInodeIds with
  | error => exact nofun
  | ok =>
    obtain ⟨mid, hrun, hfrom, hlive, _⟩ :=
      h.retireFor_sweptFrom (E := BeginSessionError) input.inodeId nowMs
    refine ensures_bind (ensures_bind_of_ok hrun (ensures_bind (ensures_current
      (ensures_bind (ensures_failIf ?_ fun hfree => ?_)))))
    · rintro (hentry | hpath) _
      · obtain ⟨entry, hentry⟩ := Option.ne_none_iff_exists'.1 hentry
        exact .inl ⟨entry, hfrom.swept.lookup_of_some hentry, hlive entry hentry⟩
      · exact .inr (hfrom.livePath hreach hpath)
    · cases sessionRejection registry mid input.openClientId with
      | some => exact nofun
      | none =>
        refine ensures_bind_of_ok rfl
          (ensures_bind (ensures_okOr (fun _ => nofun) fun epoch _ => ?_))
        refine ensures_bind (ensures_bind (ensures_current (ensures_bind (ensures_okOr
          (fun _ => nofun) fun next _ => ensures_bind (ensures_update (ensures_pure ?_))))))
        have hindexed : SessionRegistryState.Indexed { mid with nextOpeningId := next } :=
          hfrom.sound.indexed.next _ _
        obtain ⟨_, hinsert, _⟩ := hindexed.insertEntry_run (E := BeginSessionError)
          (.opening (input.opening mid.nextOpeningId epoch
            (saturatingAddU64 nowMs registry.sessionTtlMs)))
          (not_not.1 fun hne => hfree (.inl hne)) (nodup_of_validateAncestorChain hchain) nofun rfl
        exact ensures_bind_of_ok hinsert (ensures_pure trivial)

theorem Sound.beginCreateSessionAt_blames (h : state.Sound registry) (hreach : state.InReach nowMs)
    (input : BeginCreateSessionInput) : Ensures (beginCreateSessionAt registry input nowMs) state
      (fun answer _ => ∀ response, answer = .replay response →
        ∃ inodeId entry, state.entries.lookup inodeId = some entry ∧
          entry.createOperation = some input.operationId ∧ nowMs < entry.retirementAtMs)
      (fun exit _ => exit = .refused .pathBusy →
        state.LivePath nowMs (input.mountId, input.normalizedPath)) := by
  unfold beginCreateSessionAt
  refine ensures_bind (ensures_failIf (fun _ => nofun) fun _ => ?_)
  cases hchain : validateParentAncestorChain input.parentAncestorInodeIds with
  | error => exact nofun
  | ok =>
    obtain ⟨_, start, hcreate, hstart, hswept⟩ := h.retireExpiredCreateOpeningForOperation_run
      (E := BeginCreateSessionError) input.operationId nowMs
    obtain ⟨_, mid, hall, _⟩ := hstart.retireExpiredEntries_run (E := BeginCreateSessionError) nowMs
    have hfrom := hstart.sweptFrom hswept hall
    refine ensures_bind (ensures_bind_of_ok hcreate (ensures_bind_of_ok hall (ensures_bind
      (ensures_current ?_))))
    cases hactive : mid.activeCreateOperations.lookup input.operationId with
    | some inodeId =>
      obtain ⟨entry, hentry, hoperation⟩ := (hfrom.sound.indexed.activeCreates _ _).1 hactive
      have hbefore := hfrom.swept.lookup_of_some hentry
      have hlive : nowMs < entry.retirementAtMs := by
        by_contra hexpired
        exact hreach.session inodeId entry _ hbefore hoperation
          (hfrom.expired (.session _ _) ⟨entry, hentry, rfl⟩ (not_lt.1 hexpired))
      refine ensures_bind (ensures_current (ensures_bind (ensures_okOr (fun _ => nofun)
        fun session _ => ensures_bind (ensures_okOr (fun _ => nofun) fun replay _ => ?_))))
      exact ensures_bind (ensures_failIf (fun _ => nofun) fun _ =>
        ensures_pure fun _ _ => ⟨inodeId, entry, hbefore, hoperation, hlive⟩)
    | none =>
      cases hpending : mid.createOpenings.lookup input.operationId with
      | some =>
        unfold pendingCreateError
        dsimp only
        split <;> exact nofun
      | none =>
        refine ensures_bind (ensures_current (ensures_bind (ensures_failIf
          (fun hpath _ => hfrom.livePath hreach hpath) fun hfree => ?_)))
        cases sessionRejection registry mid input.openClientId with
        | some => exact nofun
        | none =>
          refine ensures_bind_of_ok rfl (ensures_bind (ensures_bind (ensures_current (ensures_bind
            (ensures_okOr (fun _ => nofun) fun next _ => ensures_bind (ensures_update
              (ensures_pure ?_)))))))
          have hindexed : SessionRegistryState.Indexed { mid with nextOpeningId := next } :=
            hfrom.sound.indexed.next _ _
          obtain ⟨_, hinsert, _⟩ := hindexed.insertCreateOpening_run (E := BeginCreateSessionError)
            (input.opening mid.nextOpeningId (saturatingAddU64 nowMs registry.sessionTtlMs))
            hpending (not_not.1 hfree) hfrom.sound.fresh_openingId
            (nodup_of_validateParentAncestorChain hchain)
          exact ensures_bind_of_ok hinsert (ensures_pure fun _ => nofun)

/-- An opening that the sweep does not reach refuses a write to a new file at its path. -/
theorem BlamesLive.opening_inReach (hblames : state.BlamesLive registry nowMs)
    (h : state.Sound registry) {operationId : CreateFileOperationId}
    {opening : CreateOpeningSession}
    (hopening : state.createOpenings.lookup operationId = some opening) :
    ¬state.book.OutOfReach nowMs (.create opening.expiresAtMs opening.openingId) := by
  intro hout
  obtain ⟨inodeId, hfresh⟩ := Infinite.exists_notMem_finset state.entries.keys
  have hnone : state.entries.lookup inodeId = none :=
    Finmap.lookup_eq_none.2 fun hmem => hfresh (Finmap.mem_keys.2 hmem)
  let input : BeginSessionInput := { openSmallFile 0 with
    normalizedPath := opening.normalizedPath, mountId := opening.mountId, inodeId := inodeId
    ancestorInodeIds := [inodeId] }
  have hbusy : (beginSessionAt registry input nowMs state).1 = .error (.refused .busy) := by
    obtain ⟨mid, hrun, hfrom, _, hkept⟩ :=
      h.retireFor_sweptFrom (E := BeginSessionError) inodeId nowMs
    obtain ⟨operationId', opening', hopening', _, hid⟩ := hkept hnone _ hout
    have hbefore := hfrom.swept.create_of_some hopening'
    cases h.indexed.createOperations.unique hopening hbefore rfl (congrArg some hid)
    cases hopening.symm.trans hbefore
    have hpath := (hfrom.sound.indexed.paths _ _).2 ⟨opening, hopening', rfl⟩
    have hchain : validateAncestorChain inodeId [inodeId] = .ok () := by
      simp [validateAncestorChain, maxPathComponents]
    unfold beginSessionAt
    change ((tryWith _ (validateAncestorChain inodeId [inodeId]) >>= _ : Registry _ _) state).1
      = _
    rw [hchain]
    change ((retireFor inodeId nowMs >>= _ : Registry _ _) state).1 = _
    rw [bind_of_ok hrun, current_bind]
    have hcondition : mid.entries.lookup input.inodeId ≠ none ∨
        mid.createOpeningsByPath.lookup (input.mountId, input.normalizedPath) ≠ none :=
      .inr (hpath ▸ nofun)
    simp only [refuseIf, failIf, hcondition, if_true]
    rfl
  rcases hblames.busy input hbusy with ⟨entry, hentry, _⟩ | ⟨other, found, hfound, hpath, hlive⟩
  · cases hnone.symm.trans hentry
  · cases h.indexed.paths.unique hopening hfound rfl (congrArg some hpath)
    cases hopening.symm.trans hfound
    exact absurd hout.2.1 (not_le.2 hlive)

/-- A session that the sweep does not reach is replayed to its create operation. -/
theorem BlamesLive.session_inReach (hblames : state.BlamesLive registry nowMs)
    (h : state.Sound registry) {inodeId : InodeId} {entry : WriteSessionEntry}
    {operationId : CreateFileOperationId} (hentry : state.entries.lookup inodeId = some entry)
    (hoperation : entry.createOperation = some operationId) :
    ¬state.book.OutOfReach nowMs (.session entry.retirementAtMs inodeId) := by
  intro hout
  have hidle : state.createOpenings.lookup operationId = none := by
    by_contra hne
    obtain ⟨opening, hopening⟩ := Option.ne_none_iff_exists'.1 hne
    exact h.coherent.exclusive hopening hentry hoperation
  have hcreate : (retireExpiredCreateOpeningForOperation operationId nowMs :
      Registry BeginCreateSessionError Bool) state = (.ok false, state) := by
    unfold retireExpiredCreateOpeningForOperation
    rw [current_bind, hidle]
    rfl
  obtain ⟨_, mid, hall, hmid, hswept⟩ :=
    h.retireExpiredEntries_run (E := BeginCreateSessionError) nowMs
  obtain ⟨kept, hkept, _⟩ := (h.retireExpiredEntries_holds hall hout.2.1).2 hout
  cases hentry.symm.trans (hswept.lookup_of_some hkept)
  have hactive := (hmid.indexed.activeCreates _ _).2 ⟨entry, hkept, hoperation⟩
  obtain ⟨session, replay, hexact, hreplay⟩ := hmid.exactCreateSession_of_active hactive
  let input : BeginCreateSessionInput := ⟨operationId, replay.requestDeadlineMs,
    replay.normalizedPath, replay.mountId, replay.expectedMountEpoch, replay.mountRootInodeId,
    operationId.clientId, [0]⟩
  have hanswer : (beginCreateSessionAt registry input nowMs state).1 =
      .ok (.replay replay.response) := by
    unfold beginCreateSessionAt
    simp only [refuseIf, failIf, input, ne_eq, not_true_eq_false, if_false]
    change ((retireExpiredCreateOpeningForOperation operationId nowMs >>= _ :
      Registry _ _) state).1 = _
    rw [bind_of_ok hcreate, bind_of_ok hall, current_bind, hactive]
    unfold replayActiveCreate
    dsimp only
    rw [current_bind, expect_bind hexact, expect_bind hreplay]
    simp [refuseIf, failIf, pure, bind]
  obtain ⟨other, found, hfound, hsame, hlive⟩ := hblames.replay input _ hanswer
  cases h.indexed.activeCreates.unique hentry hfound hoperation hsame
  cases hentry.symm.trans hfound
  exact absurd hout.2.1 (not_le.2 hlive)

/-- The answers blame live entries only, exactly if one sweep reaches every expired create opening
and every expired session of a create. -/
theorem busy_blames_live_iff (h : state.Sound registry) (nowMs : ℕ) :
    state.BlamesLive registry nowMs ↔ state.InReach nowMs := by
  constructor
  · intro hblames
    exact ⟨fun _ _ hopening => hblames.opening_inReach h hopening,
      fun _ _ _ hentry hoperation => hblames.session_inReach h hentry hoperation⟩
  · intro hreach
    refine ⟨fun input hbusy => ?_, fun input hbusy => ?_, fun input response hreplay => ?_⟩
    · exact Ensures.of_error (h.beginSessionAt_busy hreach input) (Prod.ext hbusy rfl) rfl
    · exact Ensures.of_error (h.beginCreateSessionAt_blames hreach input) (Prod.ext hbusy rfl) rfl
    · exact Ensures.of_ok (h.beginCreateSessionAt_blames hreach input)
        (Prod.ext hreplay rfl) response
        rfl

/-- A registry with room for a hundred sessions of five milliseconds. -/
def wideRegistry : SessionRegistry where
  maxSessions := 100
  maxSessionsPerClient := 100
  maxWriteTargets := 4
  maxWriteTargetsPerSession := 2
  sessionTtlMs := 5
  maxSessionsPerClient_pos := by decide
  maxSessionsPerClient_le := by decide
  maxWriteTargetsPerSession_pos := smallRegistry.maxWriteTargetsPerSession_pos
  maxWriteTargetsPerSession_le := smallRegistry.maxWriteTargetsPerSession_le
  maxSessions_lt := by decide
  maxWriteTargets_lt := smallRegistry.maxWriteTargets_lt

def openFile (path : String) (inodeId : InodeId) : BeginSessionInput :=
  { openSmallFile 0 with
    normalizedPath := path, inodeId := inodeId, ancestorInodeIds := [inodeId] }

/-- At time 0 `/f` is created and `/g` opened; both expire before `/h`, opened at time 4. -/
def overdue : SessionWorld :=
  ((SessionWorld.initial.next wideRegistry
    (.beginCreateSession ⟨⟨9, 1⟩, 50, "/f", 1, 1, 1, 9, [1]⟩ 0)).next wideRegistry
      (.beginSession (openFile "/g" 100) 0)).next wideRegistry (.beginSession (openFile "/h" 200) 4)

theorem busy_blames_live_iff_overdue :
    overdue.state.BlamesLive wideRegistry 6 ∧
    (overdue.state.createOpenings.lookup ⟨9, 1⟩).map CreateOpeningSession.expiresAtMs = some 5 ∧
    (beginSessionAt wideRegistry (openFile "/f" 10) 6 overdue.state).1.isOk = true ∧
    (beginSessionAt wideRegistry (openFile "/h" 200) 6 overdue.state).1 =
      .error (.refused .busy) := by
  have hrun : SessionWorld.Runs wideRegistry _ overdue :=
    .next (.next (.next .start (by decide) (SessionWorld.step_next rfl)) (by decide)
      (SessionWorld.step_next rfl)) (by decide) (SessionWorld.step_next rfl)
  have hreach : overdue.state.InReach 6 := inReach_of_few 6 (by decide +kernel)
  exact ⟨(busy_blames_live_iff hrun.sound.state 6).2 hreach, by decide +kernel⟩

/-- At time 0 sixty-four files are opened, then another client creates `/f`. -/
def crowded : SessionRegistryState :=
  (beginCreateSessionAt wideRegistry ⟨⟨9, 1⟩, 50, "/f", 1, 1, 1, 9, [1]⟩ 0
    ((List.range 64).foldl (fun state n =>
      (beginSessionAt wideRegistry (openFile "/g" (n + 100)) 0 state).2) .default)).2

/-- At time 10 all of them have expired, and `/f` is still busy. -/
theorem crowded_path_is_busy :
    (beginSessionAt wideRegistry (openFile "/f" 10) 10 crowded).1 = .error (.refused .busy) ∧
    crowded.entries.lookup 10 = none ∧
    (crowded.createOpenings.lookup ⟨9, 1⟩).map CreateOpeningSession.expiresAtMs = some 5 := by
  decide +kernel

end SessionRegistryState

end Beryl
