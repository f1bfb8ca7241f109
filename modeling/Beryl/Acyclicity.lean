import Beryl.Soundness

/-!
# Acyclicity of the namespace

Every inode hangs below a mount root or a detached root, and no directory is below
itself, for as long as no rename is applied whose destination parent is the inode
it moves or lies below it.  Neither the service nor the state machine compares the
two: a rename of a directory into itself succeeds and cuts it off.
-/

namespace Beryl

open History Store LeaderBuilt

def Command.MovesBelowItself (s : Store) : Command → Prop
  | .rename _ srcParentInodeId srcName _ dstParentInodeId _ _ _ _ =>
    ∃ moved, s.dentry srcParentInodeId srcName = some moved ∧
      s.forest.Below moved dstParentInodeId
  | _ => False

section Step

variable {s : Store} {command : Command} {success : ApplySuccess} {batch : WriteBatch}

theorem Command.movesAway (h : ¬command.MovesBelowItself s) :
    command.MovesAs Forest.MovesAway s := by
  cases command with
  | rename _ _ _ srcInodeId =>
    intro hsrc F hedges hbelow
    refine h ⟨srcInodeId, hsrc, ?_⟩
    exact .mono hedges _ _ hbelow
  | _ => trivial

theorem Effect.allAnchored (hlinked : Linked s) (h : Effect s command success batch)
    (hdir : command.MovesIntoDirectory s) (haway : ¬command.MovesBelowItself s)
    (hanchored : s.forest.AllAnchored) : (s.applyBatch batch).forest.AllAnchored :=
  hanchored.steps hlinked.forest (h.steps hlinked hdir (Command.movesAway haway))

theorem Effect.cyclic_of_movesBelowItself (hlinked : Linked s)
    (h : Effect s command success batch) (hmoves : command.MovesBelowItself s) :
    ∃ i, (s.applyBatch batch).forest.Cyclic i := by
  cases h with
  | @renameUnchanged _ p q x name name' _ _ _ hsrc hdst hinode =>
    obtain ⟨moved, hmoved, hbelow⟩ := hmoves
    rw [hsrc] at hmoved
    cases hmoved
    refine ⟨x, Forest.cyclic_of_move hsrc hbelow ?_ dentry_renameOps⟩
    intro d hd hne
    rw [show s.dentry q name' = some d from hd] at hdst
    exact absurd (Option.some.inj hdst) hne
  | @renamed _ p q x name name' expectedDst _ _ src parents hsrc hdst hinode hover _ =>
    obtain ⟨moved, hmoved, hbelow⟩ := hmoves
    rw [hsrc] at hmoved
    cases hmoved
    refine ⟨x, Forest.cyclic_of_move hsrc hbelow ?_ dentry_renameOps⟩
    intro d hd _
    rw [show s.dentry q name' = some d from hd] at hdst
    exact (hover d hdst.symm).2.no_child hlinked.forest
  | _ => exact hmoves.elim

end Step

/-- The command comes from a leader and moves nothing below itself. -/
def FromLeaderAway (past : Past) (s : Store) (entry : LogApply) : Prop :=
  FromLeader past s entry ∧ ¬entry.command.MovesBelowItself s

section Runs

variable {t : ℕ} {group : GroupName} {past : Past} {s : Store}

theorem allAnchored_bootstrapped (t : ℕ) (group : GroupName) :
    (bootstrapped t group).forest.AllAnchored := by
  intro i hi
  obtain ⟨inode, hinode⟩ := kind_ne_none.1 hi
  have hroot := (bootstrapped_inode_cases t group hinode).1
  exact .of_anchor (.inl ((bootstrapped_isMountRoot t group).2 hroot))

theorem allAnchored_of_run (hrun : Run Applies FromLeaderAway (bootstrapped t group) past s) :
    s.forest.AllAnchored := by
  refine Run.invariant (P := fun s => s.forest.AllAnchored) hrun
    (allAnchored_bootstrapped t group) fun hrun hanchored hentry hstep => ?_
  rcases hstep.cases with ⟨success, batch, _, heffect, rfl⟩ | ⟨_, rfl⟩
  · have hlinked := linked_of_leaderRun (hrun.mono fun _ h => h.1)
    have hdir := (hentry.1.intoDirectory hrun).moves hrun (.bootstrapped t group)
    exact heffect.allAnchored hlinked hdir hentry.2 hanchored
  · exact hanchored

/-- Without such renames the entries have no cycle, and every inode is below a
mount root or below a detached root. -/
theorem acyclic_and_anchored
    (hrun : Run Applies FromLeaderAway (Store.bootstrapped t group) past s) :
    (∀ i, ¬s.forest.Cyclic i) ∧ ∀ i inode, s.inode i = some inode →
      ∃ r, (s.IsMountRoot r ∨ s.marker r ≠ none) ∧ s.forest.Below r i := by
  have hlinked : Linked s := linked_of_leaderRun (hrun.mono fun _ h => h.1)
  have hanchored := allAnchored_of_run hrun
  constructor
  · intro i hcyclic
    obtain ⟨p, _, n, hentry⟩ := Relation.TransGen.tail'_iff.1 hcyclic
    exact hlinked.forest.not_cyclic (hanchored i (hlinked.forest.child_exists hentry)) hcyclic
  · intro i inode hinode
    exact hanchored i (kind_ne_none.2 ⟨inode, hinode⟩)

end Runs

def renameAwayLog : List Command :=
  [.rename 2 1 "a" 2 1 "b" none none 0, .createDirectory 1 1 ["a"] .new false]

theorem acyclic_and_anchored_renameAway :
    let run := healthyRun (bootstrapped 0 rootGroup) renameAwayLog
    Run Applies FromLeaderAway (bootstrapped 0 rootGroup) run.1 run.2 ∧
      run.2.dentry 1 "b" = some 2 ∧ (∀ i, ¬run.2.forest.Cyclic i) ∧
      ∃ r, (run.2.IsMountRoot r ∨ run.2.marker r ≠ none) ∧ run.2.forest.Below r 2 := by
  intro run
  have hmade : Run Applies FromLeaderAway (bootstrapped 0 rootGroup)
      (healthyRun (bootstrapped 0 rootGroup) renameAwayLog.tail).1
      (healthyRun (bootstrapped 0 rootGroup) renameAwayLog.tail).2 :=
    healthyRun_next .start
      ⟨⟨_, self_mem_visited, @createDirectory _ "/a" false 1 _ rfl⟩, id⟩
  have hlinked := linked_of_leaderRun (hmade.mono fun _ h => h.1)
  have hrun : Run Applies FromLeaderAway (bootstrapped 0 rootGroup) run.1 run.2 := by
    refine healthyRun_next hmade
      ⟨⟨_, self_mem_visited, @rename _ "/a" "/b" 0 2 _ rfl⟩, ?_⟩
    rintro ⟨moved, hmoved, hbelow⟩
    obtain rfl : 2 = moved := Option.some.inj hmoved
    rcases Relation.ReflTransGen.cases_tail hbelow with h | ⟨p, _, n, hentry⟩
    · cases h
    · exact hlinked.root_unentered hentry ⟨rootMountId, rootMountEntry rootGroup, rfl, rfl⟩
  exact ⟨hrun, rfl, (acyclic_and_anchored hrun).1, (acyclic_and_anchored hrun).2 2 _ rfl⟩

def renameIntoItselfLog : List Command :=
  [.rename 2 1 "a" 2 2 "b" none none 0, .createDirectory 1 1 ["a"] .new false]

theorem renameIntoItself_run :
    let run := healthyRun (bootstrapped 0 rootGroup) renameIntoItselfLog
    Run Applies FromLeader (bootstrapped 0 rootGroup) run.1 run.2 := by
  refine healthyRun_next (healthyRun_next .start ?_) ?_
  · exact ⟨_, self_mem_visited, @createDirectory _ "/a" false 1 _ rfl⟩
  · exact ⟨_, self_mem_visited, @rename _ "/a" "/a/b" 0 2 _ rfl⟩

/-- Both requests succeed, and the directory ends up as its own only parent. -/
theorem renameIntoItself_closes_cycle :
    let run := healthyRun (bootstrapped 0 rootGroup) renameIntoItselfLog
    Run Applies FromLeader (bootstrapped 0 rootGroup) run.1 run.2 ∧
      run.2.forest.Cyclic 2 ∧ (∃ inode, run.2.inode 2 = some inode) ∧
      ¬∃ r, (run.2.IsMountRoot r ∨ run.2.marker r ≠ none) ∧ run.2.forest.Below r 2 := by
  intro run
  have hcyclic : run.2.forest.Cyclic 2 := .single ⟨"b", rfl⟩
  refine ⟨renameIntoItself_run, hcyclic, ⟨_, rfl⟩, fun hanchored => ?_⟩
  exact (linked_of_leaderRun renameIntoItself_run).forest.not_cyclic hanchored hcyclic

section MovesAway

variable {t : ℕ} {group : GroupName} {past : Past} {s : Store}

def MovesAway (past : Past) : Prop :=
  ∀ t ∈ past, t.label.success ≠ none → ¬t.label.command.MovesBelowItself t.before

theorem allAnchored_of_movesAway (hrun : Run Applies FromLeader (bootstrapped t group) past s)
    (haway : MovesAway past) : ∀ u ∈ visited past s, u.forest.AllAnchored := by
  induction hrun with
  | start =>
    intro u hu
    rw [List.mem_singleton.1 hu]
    exact allAnchored_bootstrapped t group
  | next hrun hentry hstep ih =>
    have hold := ih fun t ht => haway t (List.mem_cons_of_mem _ ht)
    intro u hu
    rcases List.mem_cons.1 hu with rfl | hu
    · rcases hstep.cases with ⟨success, batch, hsuccess, heffect, rfl⟩ | ⟨_, rfl⟩
      · have hdir := (hentry.intoDirectory hrun).moves hrun (.bootstrapped t group)
        have hmoves := haway _ List.mem_cons_self (by simp [hsuccess])
        exact heffect.allAnchored (linked_of_leaderRun hrun) hdir hmoves (hold _ self_mem_visited)
      · exact hold _ self_mem_visited
    · exact hold u hu

/-- A cycle comes from a successful rename below the moved inode, and from nothing else. -/
theorem acyclic_iff_movesAway (hrun : Run Applies FromLeader (bootstrapped t group) past s) :
    (∀ u ∈ visited past s, ∀ i, ¬u.forest.Cyclic i) ↔ MovesAway past := by
  constructor
  · intro hacyclic t ht hsuccess hmoves
    obtain ⟨older, hbefore, _, hstep⟩ := hrun.of_mem ht
    rcases hstep.cases with ⟨success, batch, _, heffect, hafter⟩ | ⟨hnone, _⟩
    · have hcyclic := heffect.cyclic_of_movesBelowItself (linked_of_leaderRun hbefore) hmoves
      rw [← hafter] at hcyclic
      obtain ⟨i, hcyclic⟩ := hcyclic
      exact hacyclic _ (hrun.after_mem_visited ht) i hcyclic
    · exact hsuccess hnone
  · intro haway u hu i hcyclic
    obtain ⟨older, hbefore⟩ := hrun.of_mem_visited hu
    have hforest := (linked_of_leaderRun hbefore).forest
    obtain ⟨p, _, n, hentry⟩ := Relation.TransGen.tail'_iff.1 hcyclic
    have hanchored := allAnchored_of_movesAway hrun haway u hu i (hforest.child_exists hentry)
    exact hforest.not_cyclic hanchored hcyclic

end MovesAway

theorem acyclic_iff_movesAway_renameIntoItself :
    let run := healthyRun (bootstrapped 0 rootGroup) renameIntoItselfLog
    ¬∀ u ∈ visited run.1 run.2, ∀ i, ¬u.forest.Cyclic i := by
  intro run hacyclic
  exact (acyclic_iff_movesAway renameIntoItself_run).1 hacyclic _ List.mem_cons_self nofun
    ⟨2, rfl, .refl⟩

end Beryl
