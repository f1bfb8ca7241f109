import Beryl.Integrity
import Beryl.ReadPath

/-!
# How fresh a read is

A request may carry the log id of a write that its client has seen acknowledged.  The handlers
compare it with the applied log id only after they have resolved the path and read the inode, so
a replica that is behind answers some requests from older data.  What is read after the
comparison is never older than the required log id, and nothing is when the replica had applied
that log id before the first storage call.
-/

namespace Beryl

open Observer Transaction Moment RaftLogId ReadService Yields List

/-! ## Applied log ids only grow -/

theorem RaftLogId.hasReached_refl (id : RaftLogId) : id.hasReached id = true := by
  simp [hasReached]

theorem RaftLogId.hasReached_trans {first second third : RaftLogId}
    (h : first.hasReached second = true) (h' : second.hasReached third = true) :
    first.hasReached third = true := by
  simp only [hasReached, decide_eq_true_eq] at h h' ⊢
  exact h'.trans h

namespace Moment

def NotBehind (m m' : Moment) : Prop :=
  ∀ id ∈ m.storedAt, ∃ id' ∈ m'.storedAt, id'.hasReached id = true

variable {m m' : Moment}

theorem notBehind_of_eq (h : m'.db.raftState = m.db.raftState) : m.NotBehind m' := by
  intro id hid
  refine ⟨id, ?_, id.hasReached_refl⟩
  unfold storedAt at hid ⊢
  rw [h]
  exact hid

theorem notBehind_of_commit {logId : LogId} {raftState : AppMetadataRaftState}
    (hlater : ∀ id ∈ m.storedAt, logId.toRaftLogId.hasReached id = true)
    (happlied : raftState.lastAppliedLogId = some logId)
    (hstored : m'.db.raftState = some raftState) : m.NotBehind m' := by
  intro id hid
  refine ⟨logId.toRaftLogId, ?_, hlater id hid⟩
  unfold storedAt
  rw [hstored, Option.bind_some, happlied]
  rfl

theorem HasApplied.of_notBehind {required : RaftLogId} (h : m.HasApplied required)
    (hbehind : m.NotBehind m') : m'.HasApplied required := by
  rcases h with ⟨id, hid, hreached⟩
  rcases hbehind id hid with ⟨id', hid', hreached'⟩
  exact ⟨id', hid', hasReached_trans hreached' hreached⟩

/-- The inodes are those of the one mount, and the apply state in memory is not ahead of the
stored one. -/
structure Sound (m : Moment) : Prop where
  keyed : Keyed m.db.store
  memory : ∀ id ∈ m.lastApplied, ∃ id' ∈ m.storedAt, id'.hasReached id = true

theorem Sound.hasApplied (h : m.Sound) {id required : RaftLogId} (hid : id ∈ m.lastApplied)
    (hreached : id.hasReached required = true) : m.HasApplied required := by
  rcases h.memory id hid with ⟨id', hid', hreached'⟩
  exact ⟨id', hid', hasReached_trans hreached' hreached⟩

end Moment

theorem applyCommitted_raftState {command : Command} {raftState : AppMetadataRaftState}
    {db db' : Db} {outcome : Except ApplyFailure CommittedApply}
    (hrun : applyCommitted command raftState db = (outcome, db')) :
    db'.raftState = db.raftState ∨ db'.raftState = some raftState := by
  have hensures := applyCommitted_ensures db raftState command
  cases outcome with
  | error =>
    rw [(hensures.of_error hrun).1]
    exact .inl rfl
  | ok =>
    cases hensures.of_ok hrun with
    | accepted => exact .inr rfl
    | rejected => exact .inr rfl

theorem commitAppliedState_cases {raftState : AppMetadataRaftState} {db db' : Db}
    {outcome : Except Abort Unit} (hrun : commitAppliedState raftState db = (outcome, db')) :
    db' = db ∨ db' = db.commit [] raftState := by
  have hensures := commitAppliedState_ensures db raftState
  cases outcome with
  | error => exact .inl (hensures.of_error hrun).1
  | ok => exact .inr (hensures.of_ok hrun)

namespace ReplicaStep

variable {m m' : Moment}

theorem notBehind (h : ReplicaStep m m') : m.NotBehind m' := by
  cases h with
  | apply hlater hrun =>
    rcases applyCommitted_raftState hrun with hsame | hnew
    · exact notBehind_of_eq hsame
    · exact notBehind_of_commit hlater rfl hnew
  | advance hlater hrun =>
    rcases commitAppliedState_cases hrun with rfl | rfl
    · exact notBehind_of_eq rfl
    · exact notBehind_of_commit hlater rfl rfl
  | publish | other => exact notBehind_of_eq rfl

theorem keyed (h : ReplicaStep m m') (hkeyed : Keyed m.db.store) : Keyed m'.db.store := by
  cases h with
  | apply hlater hrun =>
    have happlies : Applies _ ⟨_, _, _⟩ _ := ⟨_, _, rfl, rfl, hrun⟩
    exact happlies.keyed hkeyed
  | advance hlater hrun =>
    rcases commitAppliedState_cases hrun with rfl | rfl
    · exact hkeyed
    · exact hkeyed
  | publish | other => exact hkeyed

theorem sound (h : ReplicaStep m m') (hsound : m.Sound) : m'.Sound := by
  refine ⟨h.keyed hsound.keyed, ?_⟩
  have hkept : ∀ id ∈ m.lastApplied, ∃ id' ∈ m'.storedAt, id'.hasReached id = true := by
    intro id hid
    rcases hsound.memory id hid with ⟨stored, hstored, hreached⟩
    rcases h.notBehind stored hstored with ⟨id', hid', hreached'⟩
    exact ⟨id', hid', hasReached_trans hreached' hreached⟩
  cases h with
  | apply | advance | other => exact hkept
  | publish hstored =>
    intro id hid
    refine ⟨id, ?_, id.hasReached_refl⟩
    unfold storedAt
    rw [hstored]
    exact hid

end ReplicaStep

variable {required : RaftLogId} {looks : List ReadLook}

theorem Moment.HasApplied.of_steps {m m' : Moment}
    (hmoves : Relation.ReflTransGen ReplicaStep m m') (h : m.HasApplied required) :
    m'.HasApplied required := by
  induction hmoves with
  | refl => exact h
  | tail _ hstep ih => exact ih.of_notBehind hstep.notBehind

/-! ## The looks of a request -/

abbrev ReadLook := Look Moment LookKind

/-- Everything that the request has read from storage stood at the required log id, or later. -/
def FreshReads (required : RaftLogId) (looks : List ReadLook) : Prop :=
  ∀ look ∈ looks, look.tag = .stored → look.state.HasApplied required

/-- When the request called storage for the first time, the required log id had been applied. -/
def BegunFresh (required : RaftLogId) (looks : List ReadLook) : Prop :=
  ∀ look ∈ looks.find? fun look => look.tag = .stored, look.state.HasApplied required

theorem freshReads_of_chain
    (hchain : (looks.map Look.state).Pairwise (Relation.ReflTransGen ReplicaStep))
    (hfirst : BegunFresh required looks) : FreshReads required looks := by
  induction looks with
  | nil =>
    intro look hlook
    cases hlook
  | cons first rest ih =>
    rw [map_cons, pairwise_cons] at hchain
    unfold BegunFresh at hfirst
    rw [find?_cons] at hfirst
    by_cases htag : first.tag = .stored
    · rw [decide_eq_true htag] at hfirst
      have happlied := hfirst first rfl
      intro look hlook _
      rcases mem_cons.1 hlook with rfl | hlook
      · exact happlied
      · exact happlied.of_steps (hchain.1 look.state (mem_map_of_mem hlook))
    · rw [decide_eq_false htag] at hfirst
      intro look hlook hstored
      rcases mem_cons.1 hlook with rfl | hlook
      · exact absurd hstored htag
      · exact ih hchain.2 hfirst look hlook hstored

theorem FreshReads.begunFresh (h : FreshReads required looks) : BegunFresh required looks := by
  intro look hlook
  have hstored : look.tag = .stored := by
    simpa using find?_some hlook
  exact h look (mem_of_find?_eq_some hlook) hstored

/-! ## The comparison -/

/-- How a request that requires a log id ends: with an error before it looks at the applied log
id, with `StaleState` when it has seen a lower one or none, or in any way when the applied log id
has reached the required one. -/
inductive Ending {α : Type} (required : RaftLogId) : List ReadLook → Except FsFailure α → Prop
  | early {looks failure} (hnone : ∀ look ∈ looks, look.tag ≠ .applied) :
      Ending required looks (.error failure)
  | stale {earlier check failure} (hnone : ∀ look ∈ earlier, look.tag ≠ .applied)
      (htag : check.tag = .applied)
      (hbehind : ∀ id ∈ check.state.lastApplied, id.hasReached required = false)
      (hkind : failure.error.kind = .staleState) :
      Ending required (earlier ++ [check]) (.error failure)
  | passed {earlier check later answer} (hnone : ∀ look ∈ earlier, look.tag ≠ .applied)
      (htag : check.tag = .applied)
      (hreached : ∃ id ∈ check.state.lastApplied, id.hasReached required = true) :
      Ending required (earlier ++ check :: later) answer

def Ends {α : Type} (required : RaftLogId) (x : ReadM α) : Prop :=
  ∀ s looks answer, Outcome ReplicaStep x.run s looks answer →
    (∀ look ∈ looks, look.state.Sound) → Ending required looks answer

/-- No outcome contains a look at the applied log id. -/
def Silent {ε α : Type} (x : ExceptT ε ReadProgram α) : Prop :=
  ∀ s looks answer, Outcome ReplicaStep x.run s looks answer → ∀ look ∈ looks, look.tag ≠ .applied

namespace Silent

variable {ε α β : Type} {x : ExceptT ε ReadProgram α}

theorem bind {f : α → ExceptT ε ReadProgram β} (hx : Silent x) (hf : ∀ value, Silent (f value)) :
    Silent (x >>= f) := by
  intro s looks answer houtcome
  obtain ⟨first, rest, value, s', rfl, hfirst, hrest⟩ | ⟨error, -, herror⟩ :=
    sequence_cases houtcome
  · exact forall_mem_append.2 ⟨hx _ _ _ hfirst, hf value _ _ _ hrest⟩
  · exact hx _ _ _ herror

theorem liftExcept (result : Except ε α) : Silent (Beryl.liftExcept result) := by
  intro s looks answer houtcome
  cases houtcome
  exact forall_mem_nil _

theorem pure (value : α) : Silent (Pure.pure value : ExceptT ε ReadProgram α) :=
  liftExcept (.ok value)

theorem throw (error : ε) : Silent (MonadExcept.throw error : ExceptT ε ReadProgram α) :=
  liftExcept (.error error)

theorem readStorage (call : StorageM α) : Silent (Beryl.readStorage call) := by
  intro s looks answer houtcome
  cases houtcome with
  | look hmoves hrest =>
    cases hrest
    simp

theorem readMemory (f : Moment → α) : Silent (Beryl.readMemory f : ExceptT ε ReadProgram α) := by
  intro s looks answer houtcome
  cases houtcome with
  | look hmoves hrest =>
    cases hrest
    simp

theorem orFailWith {x : ExceptT MetadataError ReadProgram α} (hx : Silent x)
    (f : MetadataError → FsFailure) : Silent (Beryl.orFailWith x f) := by
  intro s looks answer houtcome
  obtain ⟨first, rest, result, s', rfl, hfirst, hrest⟩ := Outcome.of_bind houtcome
  cases hrest
  rw [append_nil]
  exact hx _ _ _ hfirst

end Silent

namespace Ending

variable {α β : Type} {required : RaftLogId} {first rest : List ReadLook}

theorem after {answer : Except FsFailure α} (hnone : ∀ look ∈ first, look.tag ≠ .applied)
    (h : Ending required rest answer) : Ending required (first ++ rest) answer := by
  cases h with
  | early hrest => exact .early (forall_mem_append.2 ⟨hnone, hrest⟩)
  | stale hrest htag hbehind hkind =>
    rw [← append_assoc]
    exact .stale (forall_mem_append.2 ⟨hnone, hrest⟩) htag hbehind hkind
  | passed hrest htag hreached =>
    rw [← append_assoc]
    exact .passed (forall_mem_append.2 ⟨hnone, hrest⟩) htag hreached

theorem before {value : α} (h : Ending required first (.ok value : Except FsFailure α))
    (answer : Except FsFailure β) : Ending required (first ++ rest) answer := by
  cases h with
  | passed hnone htag hreached =>
    rw [append_assoc, cons_append]
    exact .passed hnone htag hreached

theorem error {failure : FsFailure} (h : Ending required first (.error failure : Except _ α)) :
    Ending required first (.error failure : Except _ β) := by
  cases h with
  | early hnone => exact .early hnone
  | stale hnone htag hbehind hkind => exact .stale hnone htag hbehind hkind
  | passed hnone htag hreached => exact .passed hnone htag hreached

end Ending

namespace Ends

variable {α β : Type} {required : RaftLogId} {x : ReadM α} {f : α → ReadM β}

theorem throw (failure : FsFailure) : Ends required (MonadExcept.throw failure : ReadM α) := by
  intro s looks answer houtcome _
  cases houtcome
  exact .early (forall_mem_nil _)

theorem after {Q : List ReadLook → α → Prop} (hsilent : Silent x)
    (hx : Yields ReplicaStep Moment.Sound x Q)
    (hf : ∀ first value, Q first value → Ends required (f value)) : Ends required (x >>= f) := by
  intro s looks answer houtcome hsound
  obtain ⟨first, rest, value, s', rfl, hfirst, hrest⟩ | ⟨error, rfl, herror⟩ :=
    sequence_cases houtcome
  · obtain ⟨hsound, hsound'⟩ := forall_mem_append.1 hsound
    exact (hf _ _ (hx _ _ _ hfirst hsound) _ _ _ hrest hsound').after (hsilent _ _ _ hfirst)
  · exact .early (hsilent _ _ _ herror)

theorem before (hx : Ends required x) : Ends required (x >>= f) := by
  intro s looks answer houtcome hsound
  obtain ⟨first, rest, value, s', rfl, hfirst, hrest⟩ | ⟨error, rfl, herror⟩ :=
    sequence_cases houtcome
  · exact (hx _ _ _ hfirst (forall_mem_append.1 hsound).1).before answer
  · exact (hx _ _ _ herror hsound).error

end Ends

section Handlers

variable {service : ReadService} {groupName : GroupName} {ctx : RequestContext}
  {required : RaftLogId}

/-- The owner group of the one mount, and what the request requires of it. -/
structure Requires (service : ReadService) (ctx : RequestContext) (groupName : GroupName)
    (required : RaftLogId) : Prop where
  mounts : service.mountTable = rootMounts groupName
  watermark : ReadService.requiredStateId ctx groupName = some required

section

variable (h : Requires service ctx groupName required)
include h

theorem Requires.hints : (service.mountHintsForMount rootMountId).1 = some groupName := by
  unfold mountHintsForMount
  rw [h.mounts]
  rfl

theorem Requires.validateMountEpoch {freshness : Freshness} {hints : Option GroupName × Option ℕ}
    (hok : service.validateMountEpoch ctx freshness rootMountId = .ok hints) :
    hints.1 = some groupName := by
  have hhints := h.hints
  unfold ReadService.validateMountEpoch at hok
  rcases hfound : service.mountHintsForMount rootMountId with ⟨found, mountEpoch⟩
  rw [hfound] at hok hhints
  simp only at hok
  split at hok
  · split at hok
    · cases hok
    · rw [← Except.ok.inj hok]
      exact hhints
  · rw [← Except.ok.inj hok]
    exact hhints

/-- Behind the required log id, the check fails with `StaleState` or finds no applied log id. -/
theorem Requires.validateStaleState (lastApplied : Option RaftLogId) (mountEpoch : Option ℕ) :
    (∃ id ∈ lastApplied, id.hasReached required = true) ∨
    (∀ id ∈ lastApplied, id.hasReached required = false) ∧
      (ReadService.validateStaleState ctx lastApplied (some groupName) mountEpoch =
          .ok .unknownLastApplied ∨
        ∃ failure, ReadService.validateStaleState ctx lastApplied (some groupName) mountEpoch =
          .error failure ∧ failure.error.kind = .staleState) := by
  unfold ReadService.validateStaleState
  simp only [h.watermark]
  cases lastApplied with
  | none => exact .inr ⟨nofun, .inl rfl⟩
  | some applied =>
    cases hreached : applied.hasReached required with
    | true => exact .inl ⟨applied, rfl, hreached⟩
    | false =>
      refine .inr ⟨?_, .inr ⟨_, by simp only [hreached]; rfl, rfl⟩⟩
      rintro _ ⟨⟩
      exact hreached

end

variable {ε α : Type} {K : Moment → Prop}

theorem liftExcept_yields (result : Except ε α) : Yields ReplicaStep K (liftExcept result)
      fun looks value => looks = [] ∧ result = .ok value := by
  intro s looks value houtcome _
  cases houtcome
  exact ⟨rfl, rfl⟩

theorem pure_yields (answer : α) : Yields ReplicaStep K (pure answer : ExceptT ε ReadProgram α)
      fun looks value => looks = [] ∧ value = answer := by
  intro s looks value houtcome _
  cases houtcome
  exact ⟨rfl, rfl⟩

theorem any_yields (x : ExceptT ε ReadProgram α) : Yields ReplicaStep K x fun _ _ => True :=
  fun _ _ _ _ _ => trivial

theorem silent_validateRouteEpoch {freshness : Freshness} {found : Option GroupName}
    {mountEpoch : Option ℕ} {intent : String} :
    Silent (validateRouteEpoch ctx freshness found mountEpoch intent) := by
  refine (Silent.readMemory _).bind fun routeEpoch => ?_
  split
  · exact .throw _
  · split
    · split
      · exact .throw _
      · exact .pure _
    · exact .pure _

theorem Requires.validateReadFreshness (h : Requires service ctx groupName required)
    (freshness : Freshness) (intent : String) :
    Ends required (service.validateReadFreshnessForMount ctx freshness rootMountId intent) := by
  refine .after (.liftExcept _) (liftExcept_yields _) fun _ hints hhints => ?_
  rcases hints with ⟨found, mountEpoch⟩
  have hfound : found = some groupName := h.validateMountEpoch hhints.2
  subst hfound
  refine .after silent_validateRouteEpoch (any_yields _) fun _ routeEpoch _ => ?_
  intro s looks answer houtcome _
  obtain ⟨m, rest, rfl, hrest⟩ := view_look houtcome
  rcases h.validateStaleState m.lastApplied mountEpoch with hreached | ⟨hbehind, hstale⟩
  · exact .passed (forall_mem_nil _) rfl hreached
  · rcases hstale with hunknown | ⟨failure, hfailure, hkind⟩
    · rw [hunknown] at hrest
      cases hrest
      exact .stale (forall_mem_nil _) rfl hbehind rfl
    · rw [hfailure] at hrest
      cases hrest
      exact .stale (forall_mem_nil _) rfl hbehind hkind

theorem Moment.reads_getInode {m : Moment} {inodeId : InodeId} {inode : Inode}
    (h : m.reads (getInode inodeId) = .ok (some inode)) :
    m.db.store.inode inodeId = some inode := by
  unfold reads getInode query at h
  rcases hfault : m.db.env.fault (.readInode inodeId) with _ | message
  · rw [hfault] at h
    exact Except.ok.inj h
  · rw [hfault] at h
    cases h

theorem readStorage_yields (call : StorageM α) : Yields ReplicaStep K (readStorage call)
      fun looks value => ∃ m, looks = [⟨.stored, m⟩] ∧ K m ∧ m.reads call = .ok value := by
  intro s looks value houtcome hsound
  unfold readStorage at houtcome
  generalize hresult : (fun m : Moment => m.reads call) = view at houtcome
  cases houtcome with
  | @look _ _ _ _ _ m _ _ hmoves hrest =>
    generalize hvalue : view m = answer at hrest
    cases hrest
    rw [← hresult] at hvalue
    exact ⟨m, rfl, hsound _ mem_cons_self, hvalue⟩

theorem orFailWith_yields {x : ExceptT MetadataError ReadProgram α}
    {f : MetadataError → FsFailure} {Q : List ReadLook → α → Prop} (hx : Yields ReplicaStep K x Q) :
    Yields ReplicaStep K (orFailWith x f) Q := by
  intro s looks value houtcome hsound
  rcases Outcome.of_bind houtcome with ⟨first, rest, result, s', rfl, hfirst, hrest⟩
  cases result with
  | error => cases hrest
  | ok =>
    cases hrest
    rw [append_nil] at hsound ⊢
    exact hx s first value hfirst hsound

theorem readTarget_yields (inodeId : InodeId) (missing : String) :
    Yields ReplicaStep Moment.Sound (readTarget ctx inodeId missing)
      fun _ inode => inode.mountId = rootMountId := by
  refine (orFailWith_yields (readStorage_yields _)).bind fun _ found hfound => ?_
  cases found with
  | none => exact throw
  | some =>
    rcases hfound with ⟨m, _, hsound, hreads⟩
    refine (pure_yields _).mono fun _ value hvalue => ?_
    rw [hvalue.2]
    exact hsound.keyed.mountId_eq (reads_getInode hreads)

theorem silent_readTarget (inodeId : InodeId) (missing : String) :
    Silent (readTarget ctx inodeId missing) := by
  refine ((Silent.readStorage _).orFailWith _).bind fun found => ?_
  cases found with
  | none => exact .throw _
  | some => exact .pure _

theorem silent_walkDentryLooking (components : List String) (inodeId : InodeId)
    (ancestorInodeIds : List InodeId) :
    Silent (walkDentryLooking inodeId ancestorInodeIds components) := by
  induction components generalizing inodeId ancestorInodeIds with
  | nil => exact .pure _
  | cons component rest ih =>
    refine (Silent.readStorage _).bind fun found => ?_
    cases found with
    | none => exact .throw _
    | some => exact ih _ _

theorem silent_resolveTarget (path : String) : Silent (service.resolveTarget ctx path) := by
  have hresolve : Silent (service.resolvePathLooking path) := by
    refine (Silent.liftExcept _).bind ?_
    rintro ⟨entry, components⟩
    dsimp only
    split
    · exact .pure _
    · refine (silent_walkDentryLooking _ _ _).bind fun _ => ?_
      refine (Silent.readStorage _).bind fun found => ?_
      split
      · exact .throw _
      · split
        · exact .throw _
        · exact (Silent.readStorage _).bind fun _ => .pure _
  refine (hresolve.orFailWith _).bind fun resolved => ?_
  split
  · exact .throw _
  · exact .pure _

theorem silent_checkReadiness : Silent checkReadiness := by
  refine (Silent.readMemory _).bind fun isReady => ?_
  split
  · exact .pure _
  · exact .throw _

theorem silent_checkDataRead (mountId : MountId) : Silent (service.checkDataRead mountId) := by
  refine silent_checkReadiness.bind fun _ => ?_
  split
  · exact .throw _
  · split
    · exact .pure _
    · exact .throw _

theorem silent_locationsTarget (target : BlockLocationsTarget) :
    Silent (service.locationsTarget ctx target) := by
  cases target with
  | path path => exact (silent_resolveTarget path).bind fun _ => .pure _
  | inodeId =>
    refine Silent.bind ?_ fun _ => .pure _
    refine (silent_readTarget _ _).bind fun inode => ?_
    split
    · exact .throw _
    · split
      · exact .throw _
      · exact .pure _

/-! ## Handlers -/

section

variable (h : Requires service ctx groupName required)
include h

theorem Requires.getAttrResolved (inodeId : InodeId) (freshness : Freshness) :
    Ends required (service.getAttrResolved ctx inodeId freshness) := by
  refine .after (silent_readTarget _ _) (readTarget_yields _ _) fun _ inode hmount => ?_
  split
  · exact .throw _
  · rw [hmount]
    exact .before (h.validateReadFreshness freshness _)

theorem Requires.readDirResolved (parentInodeId : InodeId) (cursorKey : Option DentryCursor)
    (maxEntries : ℕ) (freshness : Freshness) :
    Ends required (service.readDirResolved ctx parentInodeId cursorKey maxEntries freshness) := by
  refine .after (silent_readTarget _ _) (readTarget_yields _ _) fun _ parent hmount => ?_
  split
  · exact .throw _
  · split
    · exact .throw _
    · rw [hmount]
      exact .before (h.validateReadFreshness freshness _)

theorem Requires.getFileLayoutResolved (inodeId : InodeId)
    (range : Option ReadService.FileRange) (freshness : Freshness) :
    Ends required (service.getFileLayoutResolved ctx inodeId range freshness) := by
  refine .after (silent_readTarget _ _) (readTarget_yields _ _) fun _ inode hmount => ?_
  split
  · exact .throw _
  · split
    · exact .throw _
    · rw [hmount]
      exact .before (h.validateReadFreshness freshness _)

theorem Requires.handle (request : ReadService.ReadRequest) :
    Ends required (service.handle ctx request) := by
  cases request with
  | getStatus path freshness =>
    refine .after silent_checkReadiness (any_yields _) fun _ _ _ => ?_
    exact .after (silent_resolveTarget path) (any_yields _) fun _ target _ =>
      h.getAttrResolved target.2 freshness
  | listStatus path cursorKey maxEntries freshness =>
    refine .after silent_checkReadiness (any_yields _) fun _ _ _ => ?_
    exact .after (silent_resolveTarget path) (any_yields _) fun _ target _ =>
      h.readDirResolved target.2 cursorKey maxEntries freshness
  | openFile path freshness =>
    refine .after silent_checkReadiness (any_yields _) fun _ _ _ => ?_
    refine .after (silent_resolveTarget path) (any_yields _) fun _ target _ => ?_
    refine .after (silent_checkDataRead _) (any_yields _) fun _ _ _ => ?_
    exact .before (h.getFileLayoutResolved target.2 none freshness)
  | getBlockLocations target range freshness =>
    refine .after silent_checkReadiness (any_yields _) fun _ _ _ => ?_
    refine .after (silent_locationsTarget target) (any_yields _) fun _ target _ => ?_
    exact .after (silent_checkDataRead _) (any_yields _) fun _ _ _ =>
      h.getFileLayoutResolved target.2 range freshness

end

end Handlers

/-! ## Answers -/

/-- The outcomes of one request, whatever the replica applies while it runs. -/
abbrev ReadOutcome (service : ReadService) (ctx : RequestContext)
    (request : ReadService.ReadRequest) (start : Moment) (looks : List ReadLook)
    (answer : Except FsFailure (FsSuccess request.Output)) : Prop :=
  Outcome ReplicaStep (service.handle ctx request).run start looks answer

/-- The request succeeds, or the client learns that something does not exist. -/
def Served {α : Type} : Except FsFailure α → Prop
  | .ok _ => True
  | .error failure => failure.error.kind = .notFound

def bootstrappedMoment : Moment where
  db :=
    { store := Store.bootstrapped 0 rootGroup
      raftState := some { AppMetadataRaftState.initial with lastAppliedLogId := some ⟨1, 1, 1⟩ }
      journal := []
      env := ⟨fun _ => none, fun _ => 0⟩ }
  raftState := { AppMetadataRaftState.initial with lastAppliedLogId := some ⟨1, 1, 1⟩ }
  routeEpoch := .ok 0
  isReady := true
  placement := fun _ _ _ _ => .ok []

def nextApplied : Moment :=
  { bootstrappedMoment with
    db := (applyCommitted (.createDirectory 5 rootInodeId ["d"] .new false)
      { AppMetadataRaftState.initial with lastAppliedLogId := some ⟨1, 1, 2⟩ }
      bootstrappedMoment.db).2 }

def nextPublished : Moment :=
  { nextApplied with
    raftState := { AppMetadataRaftState.initial with lastAppliedLogId := some ⟨1, 1, 2⟩ } }

def rootService : ReadService := ⟨rootMounts rootGroup, false⟩

def creatorContext : RequestContext := ⟨none, none, [⟨rootGroup, ⟨1, 1, 2⟩⟩], none⟩

theorem nextPublished_follows :
    Relation.ReflTransGen ReplicaStep bootstrappedMoment nextPublished := by
  have hlater : ∀ id ∈ bootstrappedMoment.storedAt,
      (LogId.mk 1 1 2).toRaftLogId.hasReached id = true := by decide
  have hrun : applyCommitted (.createDirectory 5 rootInodeId ["d"] .new false)
      { bootstrappedMoment.raftState with lastAppliedLogId := some ⟨1, 1, 2⟩ }
      bootstrappedMoment.db = (_, nextApplied.db) := rfl
  have happly : ReplicaStep bootstrappedMoment nextApplied := .apply hlater hrun
  have hpublish : ReplicaStep nextApplied nextPublished := .publish rfl
  exact .tail (.single happly) hpublish

theorem bootstrappedMoment_sound : bootstrappedMoment.Sound :=
  ⟨Keyed.bootstrapped _ _, fun id hid => ⟨id, hid, id.hasReached_refl⟩⟩

theorem bootstrappedMoment_behind : ¬bootstrappedMoment.HasApplied ⟨1, 1, 2⟩ := by
  rintro ⟨id, hid, hreached⟩
  rw [← Option.some.inj hid] at hreached
  revert hreached
  decide

/-- The client that has seen the directory created is told that it does not exist, and it is
shown the root as it was before. -/
theorem stale_answers_served :
    Requires rootService creatorContext rootGroup ⟨1, 1, 2⟩ ∧ bootstrappedMoment.Sound ∧
      (∃ looks failure, ReadOutcome rootService creatorContext (.getStatus "/d" ⟨none, none⟩)
          bootstrappedMoment looks (.error failure) ∧
        failure.error = ⟨.notFound, "not found: Entry not found: d (parent inode: 1)"⟩ ∧
        ¬FreshReads ⟨1, 1, 2⟩ looks) ∧
      ∃ looks success, ReadOutcome rootService creatorContext (.getStatus "/" ⟨none, none⟩)
          bootstrappedMoment looks (.ok success) ∧
        success.payload = (⟨.dir, ⟨0, 0⟩, 0⟩ : ReadService.GetAttrOutput) ∧
        (nextPublished.db.store.inode rootInodeId).map (·.attrs) = some ⟨0, 5⟩ ∧
        ¬FreshReads ⟨1, 1, 2⟩ looks := by
  have hstale : ∀ {looks : List ReadLook}, ⟨.stored, bootstrappedMoment⟩ ∈ looks →
      ¬FreshReads ⟨1, 1, 2⟩ looks :=
    fun hlook hfresh => bootstrappedMoment_behind (hfresh _ hlook rfl)
  refine ⟨⟨rfl, rfl⟩, bootstrappedMoment_sound, ?_, ?_⟩
  · have hchain : List.IsChain (Relation.ReflTransGen ReplicaStep)
        [bootstrappedMoment, bootstrappedMoment, bootstrappedMoment, bootstrappedMoment] :=
      .cons_cons .refl (.cons_cons .refl (.cons_cons .refl (.singleton _)))
    refine ⟨_, _, .of_runOn hchain rfl, rfl, hstale ?_⟩
    exact mem_cons_of_mem _ mem_cons_self
  · have hchain : List.IsChain (Relation.ReflTransGen ReplicaStep)
        [bootstrappedMoment, bootstrappedMoment, bootstrappedMoment, nextPublished,
          nextPublished] :=
      .cons_cons .refl (.cons_cons .refl (.cons_cons nextPublished_follows
        (.cons_cons .refl (.singleton _))))
    refine ⟨_, _, .of_runOn hchain rfl, rfl, rfl, hstale ?_⟩
    exact mem_cons_of_mem _ mem_cons_self

/-- A request is answered from data that are fresh enough exactly when the required log id had
been applied before its first storage call; it is enough that it had been applied when the
request came in.  In any case it ends with an error before the comparison, passes the comparison
or is answered `StaleState`.  A request that succeeds has passed, and what it has read after that
is fresh. -/
theorem reads_fresh_iff (service : ReadService) (ctx : RequestContext)
    (request : ReadService.ReadRequest) (required : RaftLogId) {start : Moment}
    {looks : List ReadLook} {answer : Except FsFailure (FsSuccess request.Output)}
    (houtcome : ReadOutcome service ctx request start looks answer) :
    ((Served answer → FreshReads required looks) ↔ (Served answer → BegunFresh required looks)) ∧
      (start.HasApplied required → FreshReads required looks) ∧
      ∀ groupName, start.Sound → Requires service ctx groupName required →
        Ending required looks answer ∧
        ∀ success, answer = .ok success → ∃ earlier check later,
          looks = earlier ++ check :: later ∧ check.tag = .applied ∧
            check.state.HasApplied required ∧ FreshReads required later := by
  have hchain := pairwise_cons.1 houtcome.chain
  refine ⟨⟨fun hfresh hserved => (hfresh hserved).begunFresh,
    fun hbegun hserved => freshReads_of_chain hchain.2 (hbegun hserved)⟩, ?_, ?_⟩
  · intro hstart look hlook _
    exact hstart.of_steps (hchain.1 look.state (mem_map_of_mem hlook))
  · intro groupName hsound hrequires
    have hsounds := houtcome.all_looks (fun hstep => hstep.sound) hsound
    have hending := hrequires.handle request start looks answer houtcome hsounds
    refine ⟨hending, ?_⟩
    rintro success rfl
    cases hending with
    | @passed earlier check later _ hnone htag hreached =>
      rcases hreached with ⟨id, hid, hreached⟩
      have happlied := (hsounds check (mem_append_right _ mem_cons_self)).hasApplied hid hreached
      refine ⟨earlier, check, later, rfl, htag, happlied, fun look hlook _ => ?_⟩
      have hlater := hchain.2
      rw [map_append, map_cons, pairwise_append, pairwise_cons] at hlater
      exact happlied.of_steps (hlater.2.1.1 look.state (mem_map_of_mem hlook))

theorem reads_fresh_iff_caught_up :
    ∃ looks success, ReadOutcome rootService creatorContext (.getStatus "/d" ⟨none, none⟩)
        nextPublished looks (.ok success) ∧
      success.payload = (⟨.dir, ⟨5, 5⟩, 0⟩ : ReadService.GetAttrOutput) ∧
      FreshReads ⟨1, 1, 2⟩ looks := by
  have hchain : List.IsChain (Relation.ReflTransGen ReplicaStep)
      (nextPublished :: replicate 6 nextPublished) :=
    .cons_cons .refl (.cons_cons .refl (.cons_cons .refl (.cons_cons .refl (.cons_cons .refl
      (.cons_cons .refl (.singleton _))))))
  have happlied : nextPublished.HasApplied ⟨1, 1, 2⟩ := ⟨⟨1, 1, 2⟩, rfl, by decide⟩
  have houtcome : ReadOutcome rootService creatorContext (.getStatus "/d" ⟨none, none⟩)
      nextPublished _ (.ok _) := .of_runOn hchain rfl
  exact ⟨_, _, houtcome, rfl, (reads_fresh_iff _ _ _ ⟨1, 1, 2⟩ houtcome).2.1 happlied⟩

end Beryl
