import Psop.Jobs.Held
import Psop.Runs
import Psop.Skills.Gateway

/-!
A generation and its commit.

The job of a generation generates the files of the skill, commits them to the branch, and writes the
sha of the commit in a transaction of its own, the last one. An attempt may end anywhere: its process
stops, it loses its lease, or it raises; one that lost its lease may still run on beside the next.
Every transaction of an attempt is fenced by its lease.

`generation_together` says when the job that has finished leaves one commit and a generation that
succeeded with it, or no commit and one that did not: an attempt commits only while it holds the lease,
it is not given up between its commit and the last transaction, and it has something to commit. Nobody
else writes the branch.
-/
namespace Psop.Skills

open Psop.Jobs (Held)

inductive GenerationStatus where
  | pending | running | succeeded | failed | cancelled
deriving DecidableEq, Repr

structure GenerationRow where
  id : String
  status : GenerationStatus := .pending
  committedCommitSha : String := ""
deriving DecidableEq, Repr

inductive AttemptStage where
  | claimed
  | running
  /-- The source is loaded at this head. -/
  | loaded (head : String)
  | committing (head : String) (stage : CommitStage)
  | raised
  | over
deriving DecidableEq, Repr

/-- The job of one generation; `holder` is the attempt that has the lease. -/
structure Generation where
  branch : Branch
  row : GenerationRow
  baseCommitSha : Option String
  held : Held
  holder : Option Nat := none
  attempts : List AttemptStage := []

namespace Generation

def setAttempt (k : Nat) (stage : AttemptStage) (s : Generation) : Generation :=
  { s with attempts := s.attempts.set k stage }

/-- An attempt goes on outside the tables. -/
def goOn (k : Nat) (next : AttemptStage → Option AttemptStage) (s : Generation) : Option Generation :=
  (s.attempts[k]?.bind next).map fun stage => s.setAttempt k stage

/-- The lease is given up with the last transaction of an attempt. -/
def settle (k : Nat) (status : Psop.Runtime.JobStatus) (row : GenerationRow) (s : Generation) : Generation :=
  { s with row := row, held := s.held.settle status, holder := none }.setAttempt k .over

end Generation

/-- `claim_next_job` -/
def claimGeneration (s : Generation) : Option Generation :=
  s.held.claim.map fun held =>
    { s with held := held, holder := some s.attempts.length, attempts := s.attempts ++ [.claimed] }

/-- The first transaction of `process_skill_raw_material_generation_job`. -/
def startGeneration (k : Nat) (s : Generation) : Option Generation :=
  match s.attempts[k]? with
  | some .claimed =>
    if s.holder ≠ some k then some (s.setAttempt k .over)
    else if s.row.status = .succeeded then some (s.settle k .succeeded s.row)
    else some ({ s with row := { s.row with status := .running } }.setAttempt k .running)
  | _ => none

/-- The head of the source, compared with the base of the request if there is one. -/
def loadSource (base : Option String) (head : String) : AttemptStage → Option AttemptStage
  | .running => some (if base.all (· == head) then .loaded head else .raised)
  | _ => none

/-- The head once more, compared with that of the source; the agent has made its files by now. -/
def recheckHead (head : String) (files binaryFiles : Files) : AttemptStage → Option AttemptStage
  | .loaded loaded => some (if head = loaded
      then .committing loaded (CommitStage.commitRepositoryFiles files binaryFiles) else .raised)
  | _ => none

/-- One request of `commit_repository_files`. -/
def commitRequest (k : Nat) (sha : String) (reply : Reply) (s : Generation) : Option Generation :=
  match s.attempts[k]? with
  | some (.committing head stage) => (stage.step sha s.row.id s.branch reply).map fun (stage, branch) =>
      { s with branch := branch }.setAttempt k (.committing head stage)
  | _ => none

/-- The last transaction of an attempt that committed, which raises without the lease. -/
def finishGeneration (k : Nat) (s : Generation) : Option Generation :=
  match s.attempts[k]? with
  | some (.committing _ (.returned sha)) =>
    if s.holder = some k then
      some (s.settle k .succeeded { s.row with status := .succeeded, committedCommitSha := sha })
    else some (s.setAttempt k .raised)
  | _ => none

/-- An exception in an attempt that has started. -/
def raiseGeneration : AttemptStage → Option AttemptStage
  | .running | .loaded _ | .committing .. => some .raised
  | .claimed | .raised | .over => none

/-- The transaction of the exception handler. -/
def failGeneration (k : Nat) (s : Generation) : Option Generation :=
  match s.attempts[k]? with
  | some .raised =>
    if s.holder = some k then some (s.settle k .failed { s.row with status := .failed })
    else some (s.setAttempt k .over)
  | _ => none

/-- `finalize_exhausted_raw_material_generation_job` -/
def exhaustedRow (row : GenerationRow) : GenerationRow :=
  if row.status = .succeeded ∨ row.status = .failed ∨ row.status = .cancelled then row
  else { row with status := .failed }

/-- The lease is lost, or the attempt ends without its last transaction. -/
def dropGeneration (s : Generation) : Option Generation :=
  if s.held.status ≠ .running then none
  else some { s with
    row := if s.held.exhausted then exhaustedRow s.row else s.row
    held := s.held.drop, holder := none }

inductive GenerationEvent where
  | claim
  | start (attempt : Nat)
  | load (attempt : Nat)
  | recheck (attempt : Nat) (files binaryFiles : Files)
  | request (attempt : Nat) (sha : String) (reply : Reply)
  | finish (attempt : Nat)
  | raise (attempt : Nat)
  | fail (attempt : Nat)
  | drop
deriving DecidableEq, Repr

def Generation.step (s : Generation) : GenerationEvent → Option Generation
  | .claim => claimGeneration s
  | .start k => startGeneration k s
  | .load k => s.goOn k (loadSource s.baseCommitSha s.branch.head.sha)
  | .recheck k files binaryFiles => s.goOn k (recheckHead s.branch.head.sha files binaryFiles)
  | .request k sha reply => commitRequest k sha reply s
  | .finish k => finishGeneration k s
  | .raise k => s.goOn k raiseGeneration
  | .fail k => failGeneration k s
  | .drop => dropGeneration s

/-! ### The commits of a generation -/

variable {s t : Generation}

/-- The commits made for the generation, newest first. -/
def Generation.made (s : Generation) : List Commit :=
  s.branch.commits.filter fun c => c.request == s.row.id

/-- The generation has a commit that its row does not record. -/
def Generation.unrecorded (s : Generation) : Bool := !s.made.isEmpty && s.row.status != .succeeded

/-- The generation succeeded with its one commit, or it has none. -/
def Together (s : Generation) : Prop :=
  ∃ made : Option Commit, s.made = made.toList ∧ (s.row.status = .succeeded ↔ made.isSome) ∧
    s.row.committedCommitSha = (made.map Commit.sha).getD ""

/-- The stage of an attempt that is in a call. -/
def Generation.call? (k : Nat) (s : Generation) : Option CommitStage :=
  match s.attempts[k]? with
  | some (.committing _ stage) => some stage
  | _ => none

/-- A commit request is applied under the lease, and the head answers for a commit that was made. -/
def RequestUnbroken (s : Generation) (k : Nat) : CommitStage → Reply → Prop
  | .sending _, .lost | .posting _, .lost => True
  | .sending _, _ | .posting _, _ => s.holder = some k
  | .resolving, .answered => s.made ≠ []
  | _, _ => True

instance (s : Generation) (k : Nat) : ∀ stage reply, Decidable (RequestUnbroken s k stage reply)
  | .sending _, .lost | .posting _, .lost => inferInstanceAs (Decidable True)
  | .sending _, .answered | .sending _, .appliedLost | .sending _, .appliedUnreadable
  | .posting _, .answered | .posting _, .appliedLost | .posting _, .appliedUnreadable =>
    inferInstanceAs (Decidable (s.holder = some k))
  | .resolving, .answered => inferInstanceAs (Decidable (s.made ≠ []))
  | .resolving, .lost | .resolving, .appliedLost | .resolving, .appliedUnreadable
  | .comparing .., _ | .verifying _, _ | .returned _, _ | .raised, _ =>
    inferInstanceAs (Decidable True)

/-- No attempt is given up with a commit that is not recorded. -/
def Unbroken (s : Generation) : GenerationEvent → Prop
  | .request k _ reply => ∀ stage ∈ s.call? k, RequestUnbroken s k stage reply
  | .fail k => s.holder = some k → s.unrecorded = false
  | .drop => s.unrecorded = false
  | _ => True

instance : ∀ s e, Decidable (Unbroken s e)
  | s, .request k _ reply =>
    inferInstanceAs (Decidable (∀ stage ∈ s.call? k, RequestUnbroken s k stage reply))
  | s, .fail k => inferInstanceAs (Decidable (s.holder = some k → s.unrecorded = false))
  | s, .drop => inferInstanceAs (Decidable (s.unrecorded = false))
  | _, .claim | _, .start _ | _, .load _ | _, .recheck .. | _, .finish _ | _, .raise _ =>
    inferInstanceAs (Decidable True)

/-! ### The invariant -/

/-- The attempt has its commit, and the sha it returns is that commit's. -/
def Past (sha : String) (stage : AttemptStage) : Prop :=
  stage = .raised ∨ ∃ head call, stage = .committing head call ∧ call.spent = true ∧
    ∀ made, call = .returned made → made = sha

structure Sane (s : Generation) : Prop where
  few : s.made = [] ∨ ∃ c, s.made = [c] ∧ s.branch.head = c
  unmade : s.made = [] → s.row.status ≠ .succeeded ∧ s.row.committedCommitSha = "" ∧
    ∀ (k : Nat) head sha, s.attempts[k]? ≠ some (AttemptStage.committing head (.returned sha))
  recorded : s.row.status = .succeeded → s.held.status = .succeeded ∧
    ∃ c, s.made = [c] ∧ s.row.committedCommitSha = c.sha
  holding : ∀ k, s.holder = some k → s.held.status = .running
  awaited : ∀ c, s.made = [c] → s.row.status ≠ .succeeded → ∃ k stage, s.holder = some k ∧
    s.attempts[k]? = some stage ∧ Past c.sha stage

/-- With no commit, an attempt that goes on has none either; with one that is not recorded, its own
attempt stays past it. -/
theorem Sane.setAttempt (sane : Sane s) {k : Nat} {old new : AttemptStage}
    (found : s.attempts[k]? = some old)
    (unreturned : s.made = [] → ∀ head sha, new ≠ .committing head (.returned sha))
    (past : ∀ c, s.made = [c] → Past c.sha old → Past c.sha new) : Sane (s.setAttempt k new) := by
  have inside : k < s.attempts.length := (List.getElem?_eq_some_iff.mp found).1
  refine ⟨sane.few, fun none_ => ?_, sane.recorded, sane.holding, fun c one open_ => ?_⟩
  · obtain ⟨unsettled, unnamed, unreturned'⟩ := sane.unmade none_
    refine ⟨unsettled, unnamed, fun j head sha given => ?_⟩
    rw [show (s.setAttempt k new).attempts = s.attempts.set k new from rfl, List.getElem?_set] at given
    split at given
    · exact unreturned none_ head sha (Option.some.inj given)
    · exact unreturned' j head sha given
  · obtain ⟨j, stage, holds, found', isPast⟩ := sane.awaited c one open_
    by_cases same : k = j
    · subst same
      obtain rfl : old = stage := Option.some.inj (found.symm.trans found')
      exact ⟨k, new, holds, List.getElem?_set_self inside, past c one isPast⟩
    · exact ⟨j, stage, holds, (List.getElem?_set_ne same).trans found', isPast⟩

/-- While an attempt holds the lease the row is open. -/
theorem Sane.open_ (sane : Sane s) {k : Nat} (holds : s.holder = some k) :
    s.row.status ≠ .succeeded := by
  intro succeeded
  have running := sane.holding k holds
  rw [(sane.recorded succeeded).1] at running
  cases running

/-- Without an unrecorded commit an open row has none at all. -/
theorem made_nil (recorded : s.unrecorded = false) (open_ : s.row.status ≠ .succeeded) : s.made = [] := by
  simpa [Generation.unrecorded, open_] using recorded

theorem Sane.goOn (sane : Sane s) {k : Nat} {next : AttemptStage → Option AttemptStage}
    (unreturned : ∀ old new, next old = some new → ∀ head sha, new ≠ .committing head (.returned sha))
    (past : ∀ sha old new, next old = some new → Past sha old → Past sha new)
    (stepped : s.goOn k next = some t) : Sane t := by
  obtain ⟨new, nexts, rfl⟩ := Option.map_eq_some_iff.mp stepped
  obtain ⟨old, found, nexts⟩ := Option.bind_eq_some_iff.mp nexts
  exact sane.setAttempt found (fun _ => unreturned old new nexts) fun c _ => past c.sha old new nexts

theorem past_running {sha : String} : ¬ Past sha .running := by
  rintro (same | ⟨head, call, same, -⟩) <;> cases same

theorem past_loaded {sha head : String} : ¬ Past sha (.loaded head) := by
  rintro (same | ⟨head, call, same, -⟩) <;> cases same

theorem past_claimed {sha : String} : ¬ Past sha .claimed := by
  rintro (same | ⟨head, call, same, -⟩) <;> cases same

theorem Sane.load (sane : Sane s) {k : Nat}
    (stepped : s.goOn k (loadSource s.baseCommitSha s.branch.head.sha) = some t) : Sane t := by
  refine sane.goOn (fun old new loads head sha => ?_) (fun sha old new loads isPast => ?_) stepped
  · unfold loadSource at loads
    split at loads
    · rw [← Option.some.inj loads]
      split <;> exact fun same => nomatch same
    · cases loads
  · unfold loadSource at loads
    split at loads
    · exact absurd isPast past_running
    · cases loads

theorem Sane.recheck (sane : Sane s) {k : Nat} {files binaryFiles : Files}
    (stepped : s.goOn k (recheckHead s.branch.head.sha files binaryFiles) = some t) : Sane t := by
  refine sane.goOn (fun old new checks head sha => ?_) (fun sha old new checks isPast => ?_) stepped
  · unfold recheckHead at checks
    split at checks
    · rw [← Option.some.inj checks]
      split
      · intro same
        exact CommitStage.compared_unreturned _ _ _ (AttemptStage.committing.inj same).2
      · exact fun same => nomatch same
    · cases checks
  · unfold recheckHead at checks
    split at checks
    · exact absurd isPast past_loaded
    · cases checks

theorem Sane.raise (sane : Sane s) {k : Nat} (stepped : s.goOn k raiseGeneration = some t) : Sane t := by
  have raises : ∀ old new, raiseGeneration old = some new → new = .raised := by
    intro old new raises
    unfold raiseGeneration at raises
    split at raises <;> cases raises <;> rfl
  refine sane.goOn (fun old new steps head sha => ?_) (fun sha old new steps _ => ?_) stepped
  · rw [raises old new steps]
    exact fun same => nomatch same
  · exact .inl (raises old new steps)

/-! ### The transactions of an attempt -/

/-- A job that is claimed has no commit yet. -/
theorem Sane.claim (sane : Sane s) (stepped : claimGeneration s = some t) : Sane t := by
  obtain ⟨held, claimed, rfl⟩ := Option.map_eq_some_iff.mp stepped
  obtain ⟨running, unfinished, resting⟩ := Held.claim_spec claimed
  have open_ : s.row.status ≠ .succeeded := fun succeeded => by
    rw [Held.finished, (sane.recorded succeeded).1] at unfinished
    cases unfinished
  have none_ : s.made = [] := by
    rcases sane.few with none_ | ⟨c, one, -⟩
    · exact none_
    · obtain ⟨k, stage, holds, -⟩ := sane.awaited c one open_
      exact absurd (sane.holding k holds) resting
  obtain ⟨unsettled, unnamed, unreturned⟩ := sane.unmade none_
  refine ⟨.inl none_, fun _ => ⟨unsettled, unnamed, fun k head sha given => ?_⟩,
    fun succeeded => absurd succeeded open_, fun _ _ => running, fun c one => ?_⟩
  · rw [List.getElem?_append] at given
    split at given
    · exact unreturned k head sha given
    · have := List.mem_of_getElem? given
      rw [List.mem_singleton] at this
      cases this
  · exact absurd (none_.symm.trans one) (List.cons_ne_nil _ _).symm

/-- The last transaction of an attempt without a commit. -/
theorem Sane.ended (sane : Sane s) {k : Nat} {held : Held} {row : GenerationRow}
    (none_ : s.made = []) (sameId : row.id = s.row.id) (unsettled : row.status ≠ .succeeded)
    (unnamed : row.committedCommitSha = s.row.committedCommitSha) :
    Sane ({ s with row := row, held := held, holder := none }.setAttempt k .over) := by
  have none_' : ({ s with row := row, held := held, holder := none }.setAttempt k .over).made = [] := by
    show List.filter (fun c : Commit => c.request == row.id) s.branch.commits = []
    rw [sameId]
    exact none_
  obtain ⟨-, named, unreturned⟩ := sane.unmade none_
  refine ⟨.inl none_', fun _ => ⟨unsettled, unnamed.trans named, fun j head sha given => ?_⟩,
    fun succeeded => absurd succeeded unsettled, fun _ holds => (nomatch holds), fun c one => ?_⟩
  · rw [show Generation.attempts _ = s.attempts.set k .over from rfl, List.getElem?_set] at given
    split at given
    · split at given <;> cases given
    · exact unreturned j head sha given
  · exact absurd (none_'.symm.trans one) (List.cons_ne_nil _ _).symm

theorem Sane.start (sane : Sane s) {k : Nat} (stepped : startGeneration k s = some t) : Sane t := by
  unfold startGeneration at stepped
  split at stepped
  · rename_i found
    split at stepped
    · obtain rfl := Option.some.inj stepped
      exact sane.setAttempt found (fun _ head sha same => nomatch same)
        fun c _ isPast => absurd isPast past_claimed
    · rename_i holds
      have holds := not_not.mp holds
      have open_ := sane.open_ holds
      split at stepped
      · rename_i succeeded
        exact absurd succeeded open_
      · obtain rfl := Option.some.inj stepped
        have none_ : s.made = [] := by
          rcases sane.few with none_ | ⟨c, one, -⟩
          · exact none_
          · obtain ⟨j, stage, holds', found', isPast⟩ := sane.awaited c one open_
            obtain rfl : j = k := Option.some.inj (holds'.symm.trans holds)
            obtain rfl : AttemptStage.claimed = stage := Option.some.inj (found.symm.trans found')
            exact absurd isPast past_claimed
        obtain ⟨-, unnamed, unreturned⟩ := sane.unmade none_
        have began : Sane { s with row := { s.row with status := .running } } :=
          ⟨.inl none_, fun _ => ⟨fun same => (nomatch same), unnamed, unreturned⟩, fun same => (nomatch same),
            sane.holding, fun c one => absurd (none_.symm.trans one) (List.cons_ne_nil _ _).symm⟩
        exact began.setAttempt found (fun _ head sha same => nomatch same)
          fun c _ isPast => absurd isPast past_claimed
  · cases stepped

/-- The holder returns the sha of the one commit there is. -/
theorem Sane.finish (sane : Sane s) {k : Nat} (stepped : finishGeneration k s = some t) : Sane t := by
  unfold finishGeneration at stepped
  split at stepped
  · rename_i head sha found
    split at stepped
    · rename_i holds
      obtain rfl := Option.some.inj stepped
      have open_ := sane.open_ holds
      have some_ : s.made ≠ [] := fun none_ => (sane.unmade none_).2.2 k head sha found
      obtain ⟨c, one, isHead⟩ := sane.few.resolve_left some_
      obtain ⟨j, stage, holds', found', isPast⟩ := sane.awaited c one open_
      obtain rfl : j = k := Option.some.inj (holds'.symm.trans holds)
      obtain rfl : AttemptStage.committing head (.returned sha) = stage :=
        Option.some.inj (found.symm.trans found')
      have isSha : sha = c.sha := by
        rcases isPast with same | ⟨head', call, same, -, mine⟩
        · cases same
        · exact mine sha (AttemptStage.committing.inj same).2.symm
      refine ⟨.inr ⟨c, one, isHead⟩, fun none_ => absurd none_ some_, fun _ => ⟨rfl, c, one, isSha⟩,
        fun _ holds => (nomatch holds), fun c _ open_ => absurd rfl open_⟩
    · obtain rfl := Option.some.inj stepped
      exact sane.setAttempt found (fun _ head sha same => nomatch same) fun c _ _ => .inl rfl
  · cases stepped

theorem Sane.fail (sane : Sane s) {k : Nat} (unbroken : Unbroken s (.fail k))
    (stepped : failGeneration k s = some t) : Sane t := by
  unfold failGeneration at stepped
  split at stepped
  · rename_i found
    split at stepped
    · rename_i holds
      obtain rfl := Option.some.inj stepped
      exact sane.ended (made_nil (unbroken holds) (sane.open_ holds)) rfl (fun same => nomatch same) rfl
    · rename_i lost
      obtain rfl := Option.some.inj stepped
      have inside := (List.getElem?_eq_some_iff.mp found).1
      refine ⟨sane.few, fun none_ => ?_, sane.recorded, sane.holding, fun c one open_ => ?_⟩
      · obtain ⟨unsettled, unnamed, unreturned⟩ := sane.unmade none_
        refine ⟨unsettled, unnamed, fun j head sha given => ?_⟩
        rw [show Generation.attempts _ = s.attempts.set k .over from rfl, List.getElem?_set] at given
        split at given
        · cases given
        · exact unreturned j head sha given
      · obtain ⟨j, stage, holds, found', isPast⟩ := sane.awaited c one open_
        have differ : k ≠ j := fun same => lost (same ▸ holds)
        exact ⟨j, stage, holds, (List.getElem?_set_ne differ).trans found', isPast⟩
  · cases stepped

theorem Sane.drop (sane : Sane s) (unbroken : Unbroken s .drop) (stepped : dropGeneration s = some t) :
    Sane t := by
  unfold dropGeneration at stepped
  split at stepped
  · cases stepped
  · rename_i running
    obtain rfl := Option.some.inj stepped
    have open_ : s.row.status ≠ .succeeded := fun succeeded => by
      rw [(sane.recorded succeeded).1] at running
      exact running (fun same => nomatch same)
    have none_ := made_nil unbroken open_
    obtain ⟨-, unnamed, unreturned⟩ := sane.unmade none_
    have exhausted : (exhaustedRow s.row).id = s.row.id ∧ (exhaustedRow s.row).status ≠ .succeeded ∧
        (exhaustedRow s.row).committedCommitSha = s.row.committedCommitSha := by
      unfold exhaustedRow
      split
      · exact ⟨rfl, open_, rfl⟩
      · exact ⟨rfl, fun same => (nomatch same), rfl⟩
    set row := if s.held.exhausted then exhaustedRow s.row else s.row with isRow
    obtain ⟨sameId, unsettled, same⟩ : row.id = s.row.id ∧ row.status ≠ .succeeded ∧
        row.committedCommitSha = s.row.committedCommitSha := by
      rw [isRow]
      split
      · exact exhausted
      · exact ⟨rfl, open_, rfl⟩
    have none_' : List.filter (fun c : Commit => c.request == row.id) s.branch.commits = [] := by
      rw [sameId]
      exact none_
    exact ⟨.inl none_', fun _ => ⟨unsettled, same.trans unnamed, unreturned⟩,
      fun succeeded => absurd succeeded unsettled, fun _ holds => (nomatch holds),
      fun c one => absurd (none_'.symm.trans one) (List.cons_ne_nil _ _).symm⟩

/-- The holder commits: there was no commit, and the attempt is past the new one. -/
theorem Sane.posted (sane : Sane s) {k : Nat} {head sha : String} {call call' : CommitStage}
    {actions : List FileAction} {branch : Branch} (holds : s.holder = some k)
    (found : s.attempts[k]? = some (.committing head call)) (ahead : call.spent = false)
    (posted : s.branch.post sha s.row.id actions = some branch) (spent : call'.spent = true)
    (mine : ∀ made, call' = .returned made → made = sha) :
    Sane ({ s with branch := branch }.setAttempt k (.committing head call')) := by
  have open_ := sane.open_ holds
  have none_ : s.made = [] := by
    rcases sane.few with none_ | ⟨c, one, -⟩
    · exact none_
    · obtain ⟨j, stage, holds', found', isPast⟩ := sane.awaited c one open_
      obtain rfl : j = k := Option.some.inj (holds'.symm.trans holds)
      obtain rfl : AttemptStage.committing head call = stage := Option.some.inj (found.symm.trans found')
      rcases isPast with same | ⟨head', call'', same, spent', -⟩
      · cases same
      · rw [← (AttemptStage.committing.inj same).2, ahead] at spent'
        cases spent'
  obtain ⟨files, -, advanced⟩ := Option.bind_eq_some_iff.mp posted
  set new := s.branch.next sha s.row.id files with isNew
  have one : List.filter (fun c : Commit => c.request == s.row.id) branch.commits = [new] := by
    have own : (new.request == s.row.id) = true := beq_self_eq_true _
    rw [(Branch.advance_spec advanced).2, ← isNew, List.filter_cons, if_pos own,
      show List.filter _ s.branch.commits = [] from none_]
  have some_ : List.filter (fun c : Commit => c.request == s.row.id) branch.commits ≠ [] := by
    rw [one]
    exact List.cons_ne_nil _ _
  have inside := (List.getElem?_eq_some_iff.mp found).1
  refine ⟨.inr ⟨new, one, Branch.advance_head advanced⟩, fun none_' => absurd none_' some_,
    fun succeeded => absurd succeeded open_, sane.holding, fun c one' _ => ?_⟩
  obtain rfl : new = c := (List.cons.inj (one.symm.trans one')).1
  exact ⟨k, _, holds, List.getElem?_set_self inside, .inr ⟨head, call', rfl, spent, mine⟩⟩

theorem Sane.request (sane : Sane s) {k : Nat} {sha : String} {reply : Reply}
    (unbroken : Unbroken s (.request k sha reply)) (stepped : commitRequest k sha reply s = some t) :
    Sane t := by
  unfold commitRequest at stepped
  split at stepped
  · rename_i head call found
    obtain ⟨⟨call', branch⟩, requested, rfl⟩ := Option.map_eq_some_iff.mp stepped
    have isCall : s.call? k = some call := by
      unfold Generation.call?
      rw [found]
    have unbroken := unbroken call isCall
    rcases CommitStage.step_cases requested with ⟨actions, sends, posted, answer⟩ | ⟨rfl, answer⟩
    · have ahead : call.spent = false := by
        rcases sends with rfl | rfl <;> rfl
      have holds : s.holder = some k := by
        rcases sends with rfl | rfl <;> rcases answer with ⟨rfl, -⟩ | ⟨rfl | rfl, -⟩ <;> exact unbroken
      rcases answer with ⟨-, rfl⟩ | ⟨-, spent, never⟩
      · exact sane.posted holds found ahead posted rfl fun made same =>
          (CommitStage.returned.inj same).symm
      · exact sane.posted holds found ahead posted spent fun made same => absurd same (never made)
    · have head_ : ∀ made, call' = .returned made → s.made ≠ [] ∧ made = s.branch.head.sha := by
        rintro made rfl
        rcases answer with ⟨rfl, rfl, same⟩ | never
        · exact ⟨unbroken, CommitStage.returned.inj same⟩
        · exact absurd rfl (never made)
      refine sane.setAttempt found (fun none_ head' sha' same => ?_) fun c one isPast => ?_
      · exact (head_ sha' (AttemptStage.committing.inj same).2).1 none_
      · rcases isPast with same | ⟨head', call'', same, spent, -⟩
        · cases same
        · obtain ⟨rfl, rfl⟩ := AttemptStage.committing.inj same
          refine .inr ⟨head, call', rfl, (CommitStage.spent_step spent requested).1, fun made isMade => ?_⟩
          obtain ⟨some_, rfl⟩ := head_ made isMade
          obtain ⟨c', one', isHead⟩ := sane.few.resolve_left some_
          obtain rfl : c = c' := (List.cons.inj (one.symm.trans one')).1
          rw [isHead]
  · cases stepped

/-! ### Runs -/

theorem Sane.step (sane : Sane s) {e : GenerationEvent} (unbroken : Unbroken s e)
    (stepped : s.step e = some t) : Sane t := by
  cases e with
  | claim => exact sane.claim stepped
  | start k => exact sane.start stepped
  | load k => exact sane.load stepped
  | recheck k files binaryFiles => exact sane.recheck stepped
  | request k sha reply => exact sane.request unbroken stepped
  | finish k => exact sane.finish stepped
  | raise k => exact sane.raise stepped
  | fail k => exact sane.fail unbroken stepped
  | drop => exact sane.drop unbroken stepped

/-- A generation that was just created. -/
def Generation.created (branch : Branch) (id : String) (baseCommitSha : Option String)
    (maxAttempts : Nat) : Generation where
  branch := branch
  row := { id := id }
  baseCommitSha := baseCommitSha
  held := { maxAttempts := maxAttempts }

theorem sane_created {branch : Branch} {id : String} (new : ∀ c ∈ branch.commits, c.request ≠ id)
    (baseCommitSha : Option String) (maxAttempts : Nat) :
    Sane (.created branch id baseCommitSha maxAttempts) := by
  have none_ : (Generation.created branch id baseCommitSha maxAttempts).made = [] :=
    List.filter_eq_nil_iff.mpr fun c isCommit same => new c isCommit (beq_iff_eq.mp same)
  refine ⟨.inl none_, fun _ => ⟨fun same => (nomatch same), rfl, fun k head sha given => (nomatch given)⟩,
    fun same => (nomatch same), fun _ holds => (nomatch holds),
    fun c one => absurd (none_.symm.trans one) (List.cons_ne_nil _ _).symm⟩

/-- **In every run in which no attempt is given up between its commit and its last transaction, or
commits without the lease, a job that has finished leaves a generation and its commit together.** -/
theorem generation_together {branch : Branch} {id : String}
    (new : ∀ c ∈ branch.commits, c.request ≠ id) {baseCommitSha : Option String} {maxAttempts : Nat}
    (run : Run Generation.step Unbroken (.created branch id baseCommitSha maxAttempts) t)
    (finished : t.held.finished = true) : Together t := by
  have sane : Sane t := run.invariant (fun s e t (held : Sane s) unbroken stepped =>
    held.step unbroken stepped) (sane_created new baseCommitSha maxAttempts)
  rcases sane.few with none_ | ⟨c, one, -⟩
  · obtain ⟨unsettled, unnamed, -⟩ := sane.unmade none_
    exact ⟨none, none_, ⟨fun same => absurd same unsettled, fun some_ => nomatch some_⟩, unnamed⟩
  · have succeeded : t.row.status = .succeeded := by
      by_contra open_
      obtain ⟨k, stage, holds, -⟩ := sane.awaited c one open_
      rw [Held.finished, sane.holding k holds] at finished
      cases finished
    obtain ⟨-, c', one', named⟩ := sane.recorded succeeded
    obtain rfl : c = c' := (List.cons.inj (one.symm.trans one')).1
    exact ⟨some c, one, ⟨fun _ => rfl, fun _ => succeeded⟩, named⟩

/-! ### A process that stops -/

def generationSource : Branch :=
  .root "commit-1" [("README.md", "first"), ("SKILL.md", "Purpose"), ("skill.yaml", "skill: {}")]

/-- One attempt up to its commit; the second file is as the branch has it. -/
def upToCommit : List GenerationEvent :=
  [.claim, .start 0, .load 0, .recheck 0 [("README.md", "generated"), ("SKILL.md", "Purpose")] [],
    .request 0 "" .answered, .request 0 "" .answered, .request 0 "commit-2" .answered]

/-- The process of the last attempt stops between its commit and its last transaction. -/
theorem generation_torn : ¬ ∀ t, Run Generation.step anyStep
    (.created generationSource "generation-1" (some "commit-1") 1) t → t.held.finished = true →
    Together t := by
  intro always
  obtain ⟨t, followed, torn⟩ : ∃ t, follow Generation.step anyStep
      (.created generationSource "generation-1" (some "commit-1") 1) (upToCommit ++ [.drop]) = some t ∧
      (t.held.finished && t.unrecorded) = true :=
    (Option.any_eq_true ..).mp (by decide +kernel)
  obtain ⟨finished, unrecorded⟩ := Bool.and_eq_true_iff.mp torn
  obtain ⟨made, isMade, succeeded, -⟩ := always t (run_of_follow followed) finished
  cases made with
  | none => simp [Generation.unrecorded, isMade] at unrecorded
  | some c => simp [Generation.unrecorded, succeeded] at unrecorded

/-- A first attempt that stops early, and a second one that records its commit. -/
theorem generation_together_retried : ∃ t, Run Generation.step Unbroken
    (.created generationSource "generation-1" (some "commit-1") 2) t ∧ t.held.finished = true ∧
    t.made.length = 1 ∧ Together t := by
  obtain ⟨t, followed, done⟩ : ∃ t, follow Generation.step Unbroken
      (.created generationSource "generation-1" (some "commit-1") 2)
      [.claim, .start 0, .load 0, .drop, .claim, .start 1, .load 1,
        .recheck 1 [("README.md", "generated"), ("SKILL.md", "Purpose")] [],
        .request 1 "" .answered, .request 1 "" .answered, .request 1 "commit-2" .appliedLost,
        .request 1 "" .answered, .request 1 "" .answered, .finish 1] = some t ∧
      (t.held.finished && t.made.length == 1) = true :=
    (Option.any_eq_true ..).mp (by decide +kernel)
  obtain ⟨finished, one⟩ := Bool.and_eq_true_iff.mp done
  exact ⟨t, run_of_follow followed, finished, beq_iff_eq.mp one,
    generation_together (by decide) (run_of_follow followed) finished⟩

end Psop.Skills
