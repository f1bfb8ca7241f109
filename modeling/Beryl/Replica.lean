import Beryl.CommandSpec
import Beryl.History

/-!
# Runs of the replicated state machine

A replica applies committed commands one after another.  Each apply may meet its
own storage faults, so a step is any run of `applyCommitted` on a database with
the given store.
-/

namespace Beryl

open History Transaction

structure LogApply where
  command : Command
  raftState : AppMetadataRaftState
  outcome : Except ApplyFailure CommittedApply

def LogApply.success (entry : LogApply) : Option ApplySuccess :=
  match entry.outcome with
  | .ok ⟨.ok success, _⟩ => some success
  | _ => none

def Applies (s : Store) (entry : LogApply) (s' : Store) : Prop :=
  ∃ db db', db.store = s ∧ db'.store = s' ∧
    applyCommitted entry.command entry.raftState db = (entry.outcome, db')

theorem Applies.cases {s s' : Store} {entry : LogApply} (h : Applies s entry s') :
    (∃ success batch, entry.success = some success ∧
      Effect s entry.command success batch ∧ s' = s.applyBatch batch) ∨
    (entry.success = none ∧ s' = s) := by
  obtain ⟨db, db', rfl, rfl, hrun⟩ := h
  have hensures := applyCommitted_ensures db entry.raftState entry.command
  unfold LogApply.success
  rcases houtcome : entry.outcome with failure | committed
  · rw [houtcome] at hrun
    obtain ⟨hdb, _⟩ := hensures.of_error hrun
    exact .inr ⟨rfl, by rw [hdb]⟩
  · rw [houtcome] at hrun
    cases hensures.of_ok hrun with
    | accepted heffect => exact .inl ⟨_, _, rfl, heffect, rfl⟩
    | rejected => exact .inr ⟨rfl, rfl⟩

/-- The applied entries of a run, newest first, with the stores around them. -/
abbrev Past := List (Transition Store LogApply)

abbrev Reached (past : Past) (s : Store) : Prop :=
  Run Applies (fun _ _ _ => True) Store.empty past s

def Store.bootstrapped (proposedAtMs : ℕ) (groupName : GroupName) : Store :=
  Store.empty.applyBatch (bootstrapOps proposedAtMs groupName)

def AppMetadataRaftState.initial : AppMetadataRaftState where
  lastAppliedLogId := none
  lastPurgedLogId := none
  vote := none
  committed := none
  membership := ⟨none, [], []⟩

def Db.healthy (s : Store) : Db where
  store := s
  raftState := none
  journal := []
  env := ⟨fun _ => none, fun _ => 0⟩

def Store.applied (s : Store) (command : Command) : Except ApplyFailure CommittedApply × Db :=
  applyCommitted command .initial (.healthy s)

/-- The run of a replica that applies the commands, newest first, and meets no
storage fault. -/
def healthyRun (start : Store) : List Command → Past × Store
  | [] => ([], start)
  | command :: older =>
    let (past, s) := healthyRun start older
    let (outcome, db) := s.applied command
    (⟨s, ⟨command, .initial, outcome⟩, db.store⟩ :: past, db.store)

def rootGroup : GroupName := ⟨"root", checkGroupName_root⟩

theorem healthyRun_next {admits : Past → Store → LogApply → Prop} {start : Store}
    {command : Command} {older : List Command}
    (hrun : Run Applies admits start (healthyRun start older).1 (healthyRun start older).2)
    (hadmits : admits (healthyRun start older).1 (healthyRun start older).2
      ⟨command, .initial, ((healthyRun start older).2.applied command).1⟩) :
    Run Applies admits start (healthyRun start (command :: older)).1
      (healthyRun start (command :: older)).2 :=
  .next hrun hadmits ⟨.healthy _, _, rfl, rfl, rfl⟩

theorem Reached.healthyRun (log : List Command) :
    Reached (healthyRun Store.empty log).1 (healthyRun Store.empty log).2 := by
  induction log with
  | nil => exact .start
  | cons command older ih => exact healthyRun_next ih trivial

def sampleLayout : FileLayout := ⟨4, .durablePrefix⟩

def samplePublication : FilePublication where
  blocks := [⟨⟨2, 0⟩, 3⟩]
  targetSize := 3
  expectedGeneration := 0
  expectedFileSize := 0
  leaseEpoch := 1
  mode := .appendIfUnchanged

def sampleCommit : Command := .commitFile 3 2 7 2 samplePublication

/-- Bootstrap, the creation of `/f`, one block, and the commit of its content. -/
def sampleLog : List Command :=
  [sampleCommit, .allocateBlock 2 1,
    .createFile 1 ⟨7, 1⟩ 10 20 "/f" 1 1 1 ["f"] .new sampleLayout,
    .bootstrapNamespace 0 rootGroup]

end Beryl
