import Beryl.ReclaimSpec
import Beryl.RenameSpec
import Beryl.WriteSpec

/-!
# Specification of one apply

Whatever the store, the command and the faults of the storage engine, an apply
ends in one of three ways: it succeeds with the command's effect and the apply
state in one batch, it is rejected and writes the apply state alone, or it fails
and writes nothing.  A failure is never a panic, and `Command.Ready` excludes it.
-/

namespace Beryl

open Transaction

def Command.Suits (s : Store) : Command → Prop
  | .createDirectory _ _ components _ _ => s.AllocatorRoom components.length
  | .createFile _ _ _ _ _ _ _ _ _ _ _ => s.AllocatorRoom 1
  | .acquireWriteLease _ inodeId _ => s.OnlyFileAt inodeId
  | .allocateBlock inodeId _ => s.OnlyFileAt inodeId
  | .endWriteLease _ inodeId _ => s.OnlyFileAt inodeId
  | .publishFile _ inodeId _ => s.OnlyFileAt inodeId
  | .commitFile _ inodeId _ _ _ => s.OnlyFileAt inodeId
  | .reclaimDetachedRoots candidates maxEntries maxBatchBytes =>
    validateDetachedRootReclaimCommand candidates maxEntries maxBatchBytes = .ok ()
  | _ => True

structure Command.Ready (db : Db) (raftState : AppMetadataRaftState)
    (command : Command) : Prop where
  healthy : db.env.Healthy
  sound : Sound db.store
  suits : command.Suits db.store
  parent : ¬command.RenamesIntoRemovedParent db.store
  budget : ¬command.ExceedsReclaimBudget db.env raftState db.store

variable {db : Db} {raftState : AppMetadataRaftState} {command : Command}

theorem applyCreateDirectoryCommand_ensures {hyp : Prop} {proposedAtMs : ℕ}
    {rootInodeId : InodeId} {components : List String} {attrs : InodeAttrs}
    {recursive : Bool} (hfit : hyp → db.Fit)
    (hroom : hyp → db.store.AllocatorRoom components.length) :
    Ensures (applyCreateDirectoryCommand proposedAtMs rootInodeId components attrs
        recursive raftState) db (fun made => Commits db
        (.createDirectory proposedAtMs rootInodeId components attrs recursive) raftState
        (.directoryEnsured made.1 made.2)) (Refusal hyp db) := by
  unfold applyCreateDirectoryCommand
  cases recursive with
  | true => exact applyCreateDirectory_ensures hfit hroom
  | false =>
    match components with
    | [] => exact ensures_fail (.rejected ⟨_, rfl⟩)
    | [name] => exact applyMkdir_ensures hfit hroom
    | _ :: _ :: _ => exact ensures_fail (.rejected ⟨_, rfl⟩)

theorem applyCommand_ensures (db : Db) (raftState : AppMetadataRaftState) (command : Command) :
    Ensures (applyCommand raftState command) db (Commits db command raftState)
      (Refusal (command.Ready db raftState) db) := by
  have hfit : command.Ready db raftState → db.Fit := fun h =>
    ⟨h.healthy, h.sound.linked, h.sound.names⟩
  have hfiles : command.Ready db raftState → FilesSound db.store := fun h => h.sound.files
  have hreplay : command.Ready db raftState → ReplaySound db.store := fun h => h.sound.replay
  have hsuits : command.Ready db raftState → command.Suits db.store := fun h => h.suits
  cases command with
  | bootstrapNamespace => exact ensures_map (applyBootstrapNamespace_ensures hfit)
  | registerWorkerDescriptor => exact ensures_map (applyRegisterWorker_ensures hfit)
  | createDirectory => exact ensures_map (applyCreateDirectoryCommand_ensures hfit hsuits)
  | createFile => exact ensures_map (applyCreate_ensures hfit hfiles hreplay hsuits)
  | delete => exact ensures_map (applyDelete_ensures hfit hfiles)
  | rename => exact ensures_map (applyRename_ensures hfit hfiles fun h => h.parent)
  | acquireWriteLease =>
    exact ensures_map (applyAcquireWriteLease_ensures hfit hfiles hreplay hsuits)
  | allocateBlock => exact ensures_map (applyAllocateBlock_ensures hfit hfiles hsuits)
  | endWriteLease => exact ensures_map (applyEndWriteLease_ensures hfit hfiles hsuits)
  | publishFile => exact ensures_map (applyPublishFile_ensures hfit hfiles hsuits)
  | commitFile =>
    refine okOrElse_bind ⟨_, rfl⟩ fun ended hended => ?_
    obtain ⟨rfl, _⟩ := checkedNext_eq_some hended
    exact ensures_map (applyCommitFile_ensures hfit hfiles hsuits)
  | reclaimDetachedRoots =>
    exact ensures_map (applyReclaimDetachedRoots_ensures hfit hsuits fun h => h.budget)

inductive Committed (db : Db) (command : Command) (raftState : AppMetadataRaftState) :
    CommittedApply → Db → Prop
  | accepted {success : ApplySuccess} {batch : WriteBatch}
      (heffect : Effect db.store command success batch) :
      Committed db command raftState
        (CommittedApply.new (RoutingIntent.ofCommand command) (.ok success))
        (db.commit batch raftState)
  | rejected (rejection : ApplyRejection) :
      Committed db command raftState
        (CommittedApply.new (RoutingIntent.ofCommand command) (.error rejection))
        (db.commit [] raftState)

theorem commitAppliedState_ensures (db : Db) (raftState : AppMetadataRaftState) :
    Ensures (commitAppliedState raftState) db (fun _ db' => db' = db.commit [] raftState)
      (fun abort db' => db' = db ∧ ∃ error, abort = .failed error ∧ ¬db.env.Healthy) := by
  have hcommit : Ensures (commitAppliedState raftState) db
      (fun _ db' => db' = db.commit [] raftState) (Refusal False db) := by
    unfold commitAppliedState
    exact commitAuthorityBatch_ensures False.elim rfl
  by_cases hhealthy : db.env.Healthy
  · have hfault : ∀ call, db.env.fault call = none := hhealthy
    unfold Ensures commitAppliedState commitAuthorityBatch encode query
    simp only [bind, hfault, update]
  · refine hcommit.mono (fun _ _ h => h) ?_
    rintro _ _ ⟨rfl, error, rfl, _⟩
    exact ⟨rfl, error, rfl, hhealthy⟩

theorem applyCommitted_ensures (db : Db) (raftState : AppMetadataRaftState) (command : Command) :
    Ensures (applyCommitted command raftState) db (Committed db command raftState)
      (fun failure db' => db' = db ∧ (∃ error, failure = .fatal error) ∧
        ¬command.Ready db raftState) := by
  unfold applyCommitted
  refine ensures_bind (ensures_attempt ((applyCommand_ensures db raftState command).mono ?_ ?_))
  · rintro success _ ⟨batch, heffect, rfl⟩
    exact ensures_pure (.accepted heffect)
  · rintro _ db ⟨rfl, error, rfl, hreject⟩
    cases hrejection : ApplyRejection.fromMetadataError error with
    | error fatal =>
      simp only [hrejection]
      refine ensures_fail ⟨rfl, ⟨fatal, rfl⟩, fun hready => ?_⟩
      obtain ⟨rejection, hrejectable⟩ := hreject hready
      rw [hrejection] at hrejectable
      cases hrejectable
    | ok rejection =>
      simp only [hrejection]
      refine ensures_bind (ensures_attempt ((commitAppliedState_ensures db raftState).mono ?_ ?_))
      · rintro _ _ rfl
        exact ensures_pure (.rejected rejection)
      · rintro _ _ ⟨rfl, error', rfl, hunhealthy⟩
        exact ensures_fail ⟨rfl, ⟨_, rfl⟩, fun h => hunhealthy h.healthy⟩

theorem applyCommitted_of_ok {command : Command} {db db' : Db} {success : ApplySuccess}
    (h : applyCommand raftState command db = (.ok success, db')) :
    applyCommitted command raftState db = (.ok (.new (.ofCommand command) (.ok success)), db') := by
  have hattempt : (attempt (applyCommand raftState command) :
      Transaction Db ApplyFailure _) db = (.ok (.ok success), db') := by
    unfold attempt
    rw [h]
  exact bind_of_ok hattempt

/-- An apply is all or nothing.  A success comes with one journal entry that
holds the command's whole change and the supplied apply state, a rejection writes
the apply state alone, and an error writes nothing. -/
theorem applyCommitted_all_or_nothing (db : Db) (command : Command)
    (raftState : AppMetadataRaftState) :
    match applyCommitted command raftState db with
    | (.ok ⟨.ok success, _⟩, db') =>
      ∃ batch, Effect db.store command success batch ∧
        db'.journal = db.journal ++ [⟨batch, raftState⟩] ∧
        db'.store = db.store.applyBatch batch ∧ db'.raftState = some raftState
    | (.ok ⟨.error _, _⟩, db') =>
      db'.journal = db.journal ++ [⟨[], raftState⟩] ∧ db'.store = db.store ∧
        db'.raftState = some raftState
    | (.error failure, db') => db' = db ∧ ∃ error, failure = .fatal error := by
  have hensures := applyCommitted_ensures db raftState command
  rcases hrun : applyCommitted command raftState db with ⟨failure | committed, db'⟩
  · obtain ⟨hdb, herror, _⟩ := hensures.of_error hrun
    exact ⟨hdb, herror⟩
  · cases hensures.of_ok hrun with
    | accepted heffect => exact ⟨_, heffect, rfl, rfl, rfl⟩
    | rejected => exact ⟨rfl, rfl, rfl⟩

end Beryl
