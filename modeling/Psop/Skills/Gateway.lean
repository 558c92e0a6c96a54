import Psop.Skills.Source

/-!
The commit calls of the GitLab gateway.

`commit_skill_source` and `commit_repository_file` send one commit request. `commit_repository_files`
first compares every file with the branch, sends what differs, and where the request raised asks the
branch whether the files are there all the same. `CommitStage.step` is one request of such a call: a
request reads the branch or commits to it as it is at that moment, and between two requests anything
may happen to it.
-/
namespace Psop.Skills

inductive FileAction where
  | create (path content : String)
  | update (path content : String)
deriving DecidableEq, Repr

namespace FileAction

def path : FileAction → String
  | create path _ | update path _ => path

def content : FileAction → String
  | create _ content | update _ content => content

end FileAction

/-- The content of a path, replaced where it is there and added where it is not. -/
def writeFile (path content : String) : Files → Files
  | [] => [(path, content)]
  | (p, c) :: rest => if p = path then (path, content) :: rest else (p, c) :: writeFile path content rest

/-- GitLab refuses to create what is there and to update what is not. -/
def applyAction (files : Files) : FileAction → Option Files
  | .create path content =>
    if (fileAt path files).isSome then none else some (writeFile path content files)
  | .update path content =>
    if (fileAt path files).isSome then some (writeFile path content files) else none

/-- A commit request of the API. -/
def Branch.post (sha request : String) (actions : List FileAction) (b : Branch) : Option Branch :=
  (actions.foldlM applyAction b.head.files).bind fun files => b.advance sha request files

inductive CommitStage where
  /-- The one request of `commit_skill_source` or `commit_repository_file`. -/
  | sending (actions : List FileAction)
  | comparing (left : Files) (actions : List FileAction)
  | posting (actions : List FileAction)
  /-- `_repository_files_match` after a request that raised. -/
  | verifying (left : Files)
  /-- `get_branch_head`, for the answer. -/
  | resolving
  | returned (sha : String)
  | raised
deriving DecidableEq, Repr

/-- What comes of one request. -/
inductive Reply where
  | answered
  /-- It raised. -/
  | lost
  /-- A commit request was applied but its answer was lost. -/
  | appliedLost
  /-- A commit request was applied but its answer has no sha. -/
  | appliedUnreadable
deriving DecidableEq, Repr

namespace CommitStage

/-- After the comparison of a file. -/
def compared (left : Files) (actions : List FileAction) : CommitStage :=
  if left = [] then (if actions = [] then .resolving else .posting actions)
  else .comparing left actions

/-- `expected_contents` -/
def expectedContents (actions : List FileAction) : Files :=
  actions.foldl (fun contents action => writeFile action.path action.content contents) []

def verified (left : Files) : CommitStage := if left = [] then .resolving else .verifying left

/-- `commit_repository_files` -/
def commitRepositoryFiles (files binaryFiles : Files) : CommitStage :=
  compared (files ++ binaryFiles) []

/-- The action a file takes, `none` where the branch has it. -/
def actionFor (b : Branch) (path content : String) : Option FileAction :=
  match fileAt path b.head.files with
  | some existing => if existing = content then none else some (.update path content)
  | none => some (.create path content)

/-- One request of a call and its reply; `sha` is that of the commit it makes, if it makes one. -/
def step (sha request : String) (b : Branch) : CommitStage → Reply → Option (CommitStage × Branch)
  | .sending actions, .answered => (b.post sha request actions).map fun b => (.returned sha, b)
  | .sending _, .lost => some (.raised, b)
  | .sending actions, .appliedLost | .sending actions, .appliedUnreadable =>
    (b.post sha request actions).map fun b => (.raised, b)
  | .comparing ((path, content) :: left) actions, .answered =>
    some (compared left (actions ++ (actionFor b path content).toList), b)
  | .posting actions, .answered => (b.post sha request actions).map fun b => (.returned sha, b)
  | .posting actions, .lost => some (verified (expectedContents actions), b)
  | .posting actions, .appliedLost =>
    (b.post sha request actions).map fun b => (verified (expectedContents actions), b)
  | .posting actions, .appliedUnreadable => (b.post sha request actions).map fun b => (.raised, b)
  | .verifying ((path, content) :: left), .answered =>
    some (if fileAt path b.head.files = some content then verified left else .raised, b)
  | .resolving, .answered => some (.returned b.head.sha, b)
  | .comparing .., .lost | .verifying _, .lost | .resolving, .lost => some (.raised, b)
  | .comparing .., _ | .verifying _, _ | .resolving, _ | .returned _, _ | .raised, _ => none

variable {b b' : Branch} {sha request : String} {stage stage' : CommitStage} {reply : Reply}

theorem compared_unreturned (left : Files) (actions : List FileAction) (made : String) :
    compared left actions ≠ .returned made := by
  unfold compared
  split
  · split <;> exact fun same => nomatch same
  · exact fun same => nomatch same

theorem verified_unreturned (left : Files) (made : String) : verified left ≠ .returned made := by
  unfold verified
  split <;> exact fun same => nomatch same

/-- No commit request is ahead. -/
def spent : CommitStage → Bool
  | .sending _ | .comparing .. | .posting _ => false
  | .verifying _ | .resolving | .returned _ | .raised => true

theorem verified_spent (left : Files) : (verified left).spent = true := by
  unfold verified
  split <;> rfl

/-- A request commits, and answers with its commit if at all, or it leaves the branch, and answers with
the head at the end of a call that made no commit or lost the answer. -/
theorem step_cases (stepped : stage.step sha request b reply = some (stage', b')) :
    (∃ actions, (stage = .sending actions ∨ stage = .posting actions) ∧
      b.post sha request actions = some b' ∧
      ((reply = .answered ∧ stage' = .returned sha) ∨
        (reply = .appliedLost ∨ reply = .appliedUnreadable) ∧ stage'.spent = true ∧
          ∀ made, stage' ≠ .returned made)) ∨
    b' = b ∧ (stage = .resolving ∧ reply = .answered ∧ stage' = .returned b.head.sha ∨
      ∀ made, stage' ≠ .returned made) := by
  have unmoved : ∀ stage'', some (stage'', b) = some (stage', b') →
      (∀ made, stage'' ≠ .returned made) → b' = b ∧ ∀ made, stage' ≠ .returned made := by
    intro stage'' same never
    obtain ⟨rfl, rfl⟩ := Prod.mk.inj (Option.some.inj same)
    exact ⟨rfl, never⟩
  have posted : ∀ actions stage'',
      ((b.post sha request actions).map fun b => (stage'', b)) = some (stage', b') →
      b.post sha request actions = some b' ∧ stage' = stage'' := by
    intro actions stage'' mapped
    obtain ⟨b'', isPost, same⟩ := Option.map_eq_some_iff.mp mapped
    obtain ⟨rfl, rfl⟩ := Prod.mk.inj same
    exact ⟨isPost, rfl⟩
  have lost : some (raised, b) = some (stage', b') → b' = b ∧ ∀ made, stage' ≠ .returned made :=
    fun same => unmoved _ same fun made same => nomatch same
  cases stage with
  | sending actions =>
    cases reply with
    | lost => exact .inr ((lost stepped).imp_right .inr)
    | answered =>
      obtain ⟨isPost, rfl⟩ := posted _ _ stepped
      exact .inl ⟨actions, .inl rfl, isPost, .inl ⟨rfl, rfl⟩⟩
    | appliedLost =>
      obtain ⟨isPost, rfl⟩ := posted _ _ stepped
      exact .inl ⟨actions, .inl rfl, isPost, .inr ⟨.inl rfl, rfl, fun made same => nomatch same⟩⟩
    | appliedUnreadable =>
      obtain ⟨isPost, rfl⟩ := posted _ _ stepped
      exact .inl ⟨actions, .inl rfl, isPost, .inr ⟨.inr rfl, rfl, fun made same => nomatch same⟩⟩
  | posting actions =>
    cases reply with
    | lost => exact .inr ((unmoved _ stepped (verified_unreturned _)).imp_right .inr)
    | answered =>
      obtain ⟨isPost, rfl⟩ := posted _ _ stepped
      exact .inl ⟨actions, .inr rfl, isPost, .inl ⟨rfl, rfl⟩⟩
    | appliedLost =>
      obtain ⟨isPost, rfl⟩ := posted _ _ stepped
      exact .inl ⟨actions, .inr rfl, isPost, .inr ⟨.inl rfl, verified_spent _, verified_unreturned _⟩⟩
    | appliedUnreadable =>
      obtain ⟨isPost, rfl⟩ := posted _ _ stepped
      exact .inl ⟨actions, .inr rfl, isPost, .inr ⟨.inr rfl, rfl, fun made same => nomatch same⟩⟩
  | comparing left actions =>
    cases left with
    | nil =>
      cases reply with
      | lost => exact .inr ((lost stepped).imp_right .inr)
      | answered | appliedLost | appliedUnreadable => cases stepped
    | cons file left =>
      cases reply with
      | lost => exact .inr ((lost stepped).imp_right .inr)
      | answered => exact .inr ((unmoved _ stepped (compared_unreturned _ _)).imp_right .inr)
      | appliedLost | appliedUnreadable => cases stepped
  | verifying left =>
    cases left with
    | nil =>
      cases reply with
      | lost => exact .inr ((lost stepped).imp_right .inr)
      | answered | appliedLost | appliedUnreadable => cases stepped
    | cons file left =>
      cases reply with
      | lost => exact .inr ((lost stepped).imp_right .inr)
      | answered =>
        refine .inr ((unmoved _ stepped fun made => ?_).imp_right .inr)
        split
        · exact verified_unreturned _ _
        · exact fun same => nomatch same
      | appliedLost | appliedUnreadable => cases stepped
  | resolving =>
    cases reply with
    | lost => exact .inr ((lost stepped).imp_right .inr)
    | answered =>
      obtain ⟨rfl, rfl⟩ := Prod.mk.inj (Option.some.inj stepped)
      exact .inr ⟨rfl, .inl ⟨rfl, rfl, rfl⟩⟩
    | appliedLost | appliedUnreadable => cases stepped
  | returned made => cases reply <;> cases stepped
  | raised => cases reply <;> cases stepped

/-- After its commit request a call only reads. -/
theorem spent_step (spent : stage.spent = true)
    (stepped : stage.step sha request b reply = some (stage', b')) : stage'.spent = true ∧ b' = b := by
  have raised : some (raised, b) = some (stage', b') → stage'.spent = true ∧ b' = b := by
    intro same
    obtain ⟨rfl, rfl⟩ := Prod.mk.inj (Option.some.inj same)
    exact ⟨rfl, rfl⟩
  cases stage with
  | sending actions => cases spent
  | comparing left actions => cases spent
  | posting actions => cases spent
  | verifying left =>
    cases left with
    | nil =>
      cases reply with
      | lost => exact raised stepped
      | answered | appliedLost | appliedUnreadable => cases stepped
    | cons file left =>
      cases reply with
      | lost => exact raised stepped
      | answered =>
        obtain ⟨rfl, rfl⟩ := Prod.mk.inj (Option.some.inj stepped)
        refine ⟨?_, rfl⟩
        split
        · exact verified_spent left
        · rfl
      | appliedLost | appliedUnreadable => cases stepped
  | resolving =>
    cases reply with
    | lost => exact raised stepped
    | answered =>
      obtain ⟨rfl, rfl⟩ := Prod.mk.inj (Option.some.inj stepped)
      exact ⟨rfl, rfl⟩
    | appliedLost | appliedUnreadable => cases stepped
  | returned made => cases reply <;> cases stepped
  | raised => cases reply <;> cases stepped

end CommitStage
end Psop.Skills
