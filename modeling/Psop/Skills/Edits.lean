import Psop.Runs
import Psop.Skills.Gateway

/-!
Edits of a skill's source.

`save_skill_source` and `save_repository_file` compare the base commit of their author with the head of
the branch and then send a commit request; a generation does the same with the head it loaded. The
request itself names no parent: GitLab puts the commit on top of whatever is there. `edits_on_base` says
when every edit that reports success made a commit directly on top of its base, so that it overwrites
nothing its author had not seen: the head is still the base when the request is applied, a generation
has something to commit, and a head it takes for its own commit after a lost answer is its own.
-/
namespace Psop.Skills

inductive EditKind where
  /-- `save_skill_source` with the contents of its three files. -/
  | saveSource (readme skillMd skillYaml : String)
  /-- `save_repository_file` -/
  | saveFile (path content : String)
  /-- A generation with the files it generated and its reference images. -/
  | generation (files binaryFiles : Files)
deriving DecidableEq, Repr

inductive EditStage where
  | started (base : Option String)
  /-- A generation that has loaded the source at the head. -/
  | loaded (head : String)
  | committing (base : String) (stage : CommitStage)
  | succeeded (base sha : String)
  | failed
deriving DecidableEq, Repr

structure Edit where
  id : String
  kind : EditKind
  stage : EditStage
deriving DecidableEq, Repr

structure Repo where
  branch : Branch
  edits : List Edit

namespace Repo

def edit? (id : String) (s : Repo) : Option Edit := s.edits.find? fun e => e.id == id

def setStage (id : String) (stage : EditStage) (s : Repo) : Repo :=
  { s with edits := s.edits.map fun e => if e.id = id then { e with stage := stage } else e }

end Repo

/-- What an edit does once the head is its base. -/
def EditKind.commit : EditKind → CommitStage
  | .saveSource readme skillMd skillYaml => .sending
      [.update "README.md" readme, .update "SKILL.md" skillMd, .update "skill.yaml" skillYaml]
  | .saveFile path content => .sending [.update path content]
  | .generation files binaryFiles => CommitStage.commitRepositoryFiles files binaryFiles

/-- A read of the head and its comparison with the base. A generation makes two: with the base it was
given, if any, when it loads the source, and with the loaded head before it commits. -/
def EditKind.check (head : String) : EditKind → EditStage → Option EditStage
  | .generation .., .started base =>
    some (if base.all (· == head) then .loaded head else .failed)
  | kind, .loaded base => some (if head = base then .committing base kind.commit else .failed)
  | kind, .started (some base) => some (if head = base then .committing base kind.commit else .failed)
  | _, _ => none

inductive EditEvent where
  | start (id : String) (kind : EditKind) (base : Option String)
  | check (id : String)
  | request (id sha : String) (reply : Reply)
  /-- The transaction after the commit. -/
  | finish (id : String)
  /-- The edit raised, or its process stopped. -/
  | fail (id : String)
  /-- A commit of any other request. -/
  | other (sha request : String) (files : Files)
deriving DecidableEq, Repr

def startEdit (id : String) (kind : EditKind) (base : Option String) (s : Repo) : Option Repo :=
  if (s.edit? id).isSome then none else some { s with edits := s.edits ++ [⟨id, kind, .started base⟩] }

def checkEdit (id : String) (s : Repo) : Option Repo :=
  (s.edit? id).bind fun edit =>
    (edit.kind.check s.branch.head.sha edit.stage).map fun stage => s.setStage id stage

def requestEdit (id sha : String) (reply : Reply) (s : Repo) : Option Repo :=
  (s.edit? id).bind fun edit =>
    match edit.stage with
    | .committing base stage => (stage.step sha id s.branch reply).map fun (stage, branch) =>
        { s with branch := branch }.setStage id (.committing base stage)
    | _ => none

def finishEdit (id : String) (s : Repo) : Option Repo :=
  (s.edit? id).bind fun edit =>
    match edit.stage with
    | .committing base (.returned sha) => some (s.setStage id (.succeeded base sha))
    | _ => none

def failEdit (id : String) (s : Repo) : Option Repo :=
  (s.edit? id).bind fun edit =>
    match edit.stage with
    | .succeeded .. | .failed => none
    | _ => some (s.setStage id .failed)

def Repo.step (s : Repo) : EditEvent → Option Repo
  | .start id kind base => startEdit id kind base s
  | .check id => checkEdit id s
  | .request id sha reply => requestEdit id sha reply s
  | .finish id => finishEdit id s
  | .fail id => failEdit id s
  | .other sha request files =>
    if (s.edit? request).isSome then none
    else (s.branch.advance sha request files).map fun branch => { s with branch := branch }

/-! ### Commits on top of their base -/

/-- The commit `sha` was made by the edit, directly on top of `base`. -/
def MadeOn (b : Branch) (id base sha : String) : Prop :=
  ∃ (newer older : List Commit) (c below : Commit), b.commits = newer ++ c :: below :: older ∧
    c.sha = sha ∧ c.request = id ∧ c.parent = some base ∧ below.sha = base

variable {s t : Repo} {b b' : Branch}

theorem MadeOn.advance {id base sha sha' request : String} {files : Files}
    (made : MadeOn b id base sha) (advanced : b.advance sha' request files = some b') :
    MadeOn b' id base sha := by
  obtain ⟨newer, older, c, below, commits, rest⟩ := made
  refine ⟨b.next sha' request files :: newer, older, c, below, ?_, rest⟩
  rw [(Branch.advance_spec advanced).2, commits]
  rfl

/-- A commit request on the base. -/
theorem post_madeOn {id sha : String} {actions : List FileAction}
    (posted : b.post sha id actions = some b') : MadeOn b' id b.head.sha sha := by
  obtain ⟨files, -, advanced⟩ := Option.bind_eq_some_iff.mp posted
  have commits := (Branch.advance_spec advanced).2
  obtain ⟨top, older, split⟩ : ∃ top older, b.commits = top :: older :=
    List.exists_cons_of_ne_nil b.nonempty
  have isHead : b.head = top := by
    unfold Branch.head
    simp only [split, List.head_cons]
  refine ⟨[], older, b.next sha id files, top, ?_, rfl, rfl, rfl, isHead ▸ rfl⟩
  rw [commits, split]
  rfl

theorem post_advances {id sha : String} {actions : List FileAction}
    (posted : b.post sha id actions = some b') : ∃ files, b.advance sha id files = some b' := by
  obtain ⟨files, -, advanced⟩ := Option.bind_eq_some_iff.mp posted
  exact ⟨files, advanced⟩

/-- The head was made by the edit on top of its base. -/
theorem head_madeOn {id base : String} (mine : b.head.request = id) (parent : b.head.parent = some base) :
    MadeOn b id base b.head.sha := by
  obtain ⟨commits, nonempty, distinct, chained, rooted⟩ := b
  cases commits with
  | nil => exact absurd rfl nonempty
  | cons top rest =>
    cases rest with
    | nil =>
      have first : top.parent = none := rooted top rfl
      exact absurd (first.symm.trans parent) (by simp)
    | cons below older =>
      obtain ⟨on, -⟩ := List.isChain_cons_cons.mp chained
      have parent : top.parent = some base := parent
      refine ⟨[], older, top, below, rfl, rfl, mine, parent, ?_⟩
      exact Option.some.inj (on.symm.trans parent)

/-! ### Requests on the base -/

/-- A commit request is applied to the base, and a head that is taken for the edit's commit is it. -/
def StageOnBase (b : Branch) (id base : String) : CommitStage → Reply → Prop
  | .sending _, .answered | .posting _, .answered => b.head.sha = base
  | .resolving, .answered => b.head.request = id ∧ b.head.parent = some base
  | _, _ => True

instance (b : Branch) (id base : String) : ∀ stage reply, Decidable (StageOnBase b id base stage reply)
  | .sending _, .answered | .posting _, .answered => inferInstanceAs (Decidable (b.head.sha = base))
  | .resolving, .answered =>
    inferInstanceAs (Decidable (b.head.request = id ∧ b.head.parent = some base))
  | .sending _, .lost | .sending _, .appliedLost | .sending _, .appliedUnreadable | .posting _, .lost
  | .posting _, .appliedLost | .posting _, .appliedUnreadable | .resolving, .lost
  | .resolving, .appliedLost | .resolving, .appliedUnreadable | .comparing .., _ | .verifying _, _
  | .returned _, _ | .raised, _ => inferInstanceAs (Decidable True)

/-- What an edit is in the middle of. -/
def EditStage.call? : EditStage → Option (String × CommitStage)
  | .committing base stage => some (base, stage)
  | _ => none

def OnBase (s : Repo) : EditEvent → Prop
  | .request id _ reply => ∀ edit ∈ s.edit? id, ∀ call ∈ edit.stage.call?,
      StageOnBase s.branch id call.1 call.2 reply
  | _ => True

instance : ∀ s e, Decidable (OnBase s e)
  | s, .request id _ reply => inferInstanceAs (Decidable (∀ edit ∈ s.edit? id,
      ∀ call ∈ edit.stage.call?, StageOnBase s.branch id call.1 call.2 reply))
  | _, .start .. | _, .check _ | _, .finish _ | _, .fail _ | _, .other .. =>
    inferInstanceAs (Decidable True)

/-- The commit a request returns was made on the base. -/
theorem step_madeOn {id base sha : String} {stage stage' : CommitStage} {reply : Reply}
    (on : StageOnBase b id base stage reply) (stepped : stage.step sha id b reply = some (stage', b')) :
    ∀ made, stage' = .returned made → MadeOn b' id base made := by
  rintro made rfl
  rcases CommitStage.step_cases stepped with ⟨actions, sends, posted, answer⟩ | ⟨rfl, answer⟩
  · rcases answer with ⟨rfl, same⟩ | ⟨-, -, never⟩
    · obtain rfl := CommitStage.returned.inj same
      have isBase : b.head.sha = base := by
        rcases sends with rfl | rfl
        · exact on
        · exact on
      rw [← isBase]
      exact post_madeOn posted
    · exact absurd rfl (never made)
  · rcases answer with ⟨rfl, rfl, same⟩ | never
    · obtain rfl := CommitStage.returned.inj same
      exact head_madeOn on.1 on.2
    · exact absurd rfl (never made)

theorem step_advances {id sha : String} {stage stage' : CommitStage} {reply : Reply}
    (stepped : stage.step sha id b reply = some (stage', b')) :
    b' = b ∨ ∃ files, b.advance sha id files = some b' := by
  rcases CommitStage.step_cases stepped with ⟨actions, -, posted, -⟩ | ⟨same, -⟩
  · exact .inr (post_advances posted)
  · exact .inl same

/-! ### Runs -/

/-- Every commit an edit has been given is its own, directly on top of its base. -/
def Owned (s : Repo) : Prop :=
  ∀ edit ∈ s.edits, ∀ base sha,
    edit.stage = .committing base (.returned sha) ∨ edit.stage = .succeeded base sha →
    MadeOn s.branch edit.id base sha

theorem edit?_mem {id : String} {edit : Edit} (found : s.edit? id = some edit) :
    edit ∈ s.edits ∧ edit.id = id :=
  ⟨List.mem_of_find?_eq_some found, by simpa using List.find?_some found⟩

/-- An edit goes on; what it has been given, if it is given a commit, is its own. -/
theorem Owned.setStage (owned : Owned s) {id : String} {stage : EditStage}
    (mine : ∀ base sha, stage = .committing base (.returned sha) ∨ stage = .succeeded base sha →
      MadeOn s.branch id base sha) : Owned (s.setStage id stage) := by
  intro moved isMoved base sha given
  obtain ⟨edit, isEdit, rfl⟩ := List.mem_map.mp isMoved
  split at given
  · rename_i same
    rw [if_pos same]
    exact same ▸ mine base sha given
  · rename_i differ
    rw [if_neg differ]
    exact owned edit isEdit base sha given

theorem Owned.advance (owned : Owned s)
    (advances : b' = s.branch ∨ ∃ sha request files, s.branch.advance sha request files = some b') :
    Owned { s with branch := b' } := by
  intro edit isEdit base sha given
  have made := owned edit isEdit base sha given
  rcases advances with rfl | ⟨sha', request, files, advanced⟩
  · exact made
  · exact made.advance advanced

/-- A check leads to a call that has returned nothing yet. -/
theorem check_unreturned {kind : EditKind} {head : String} {stage stage' : EditStage}
    (checked : kind.check head stage = some stage') (base sha : String) :
    ¬ (stage' = .committing base (.returned sha) ∨ stage' = .succeeded base sha) := by
  have start : ∀ sha, kind.commit ≠ .returned sha := by
    intro sha
    cases kind with
    | saveSource readme skillMd skillYaml => exact fun same => nomatch same
    | saveFile path content => exact fun same => nomatch same
    | generation files binaryFiles => exact CommitStage.compared_unreturned _ _ _
  have committing : ∀ head', (if head = head' then EditStage.committing head' kind.commit else .failed) =
      stage' → ¬ (stage' = .committing base (.returned sha) ∨ stage' = .succeeded base sha) := by
    rintro head' rfl
    split
    · rintro (same | same)
      · exact start sha (EditStage.committing.inj same).2
      · cases same
    · rintro (same | same) <;> cases same
  unfold EditKind.check at checked
  split at checked
  · rename_i files binaryFiles given
    rw [← Option.some.inj checked]
    split <;> rintro (same | same) <;> cases same
  · exact committing _ (Option.some.inj checked)
  · exact committing _ (Option.some.inj checked)
  · cases checked

theorem Owned.step (owned : Owned s) {e : EditEvent} (on : OnBase s e) (stepped : s.step e = some t) :
    Owned t := by
  cases e with
  | start id kind base =>
    simp only [Repo.step, startEdit] at stepped
    split at stepped
    · cases stepped
    · obtain rfl := Option.some.inj stepped
      intro edit isEdit base sha given
      rcases List.mem_append.mp isEdit with isOld | isNew
      · exact owned edit isOld base sha given
      · rw [List.mem_singleton.mp isNew] at given
        rcases given with same | same <;> cases same
  | check id =>
    obtain ⟨edit, -, stepped⟩ := Option.bind_eq_some_iff.mp stepped
    obtain ⟨stage, checked, rfl⟩ := Option.map_eq_some_iff.mp stepped
    exact owned.setStage fun base sha given => absurd given (check_unreturned checked base sha)
  | request id sha reply =>
    obtain ⟨edit, found, stepped⟩ := Option.bind_eq_some_iff.mp stepped
    split at stepped
    · rename_i base stage committing
      obtain ⟨⟨stage', branch⟩, requested, rfl⟩ := Option.map_eq_some_iff.mp stepped
      have onBase : StageOnBase s.branch id base stage reply :=
        on edit found (base, stage) (by rw [committing]; exact rfl)
      have advances : branch = s.branch ∨ ∃ sha request files,
          s.branch.advance sha request files = some branch :=
        (step_advances requested).imp_right fun ⟨files, advanced⟩ => ⟨sha, id, files, advanced⟩
      refine (owned.advance advances).setStage fun base' made given => ?_
      rcases given with same | same
      · obtain ⟨rfl, isReturned⟩ := EditStage.committing.inj same
        exact step_madeOn onBase requested made isReturned
      · cases same
    · cases stepped
  | finish id =>
    obtain ⟨edit, found, stepped⟩ := Option.bind_eq_some_iff.mp stepped
    obtain ⟨isEdit, rfl⟩ := edit?_mem found
    split at stepped
    · rename_i base sha returned
      obtain rfl := Option.some.inj stepped
      refine owned.setStage fun base' made given => ?_
      rcases given with same | same
      · cases same
      · obtain ⟨rfl, rfl⟩ := EditStage.succeeded.inj same
        exact owned edit isEdit base sha (.inl returned)
    · cases stepped
  | fail id =>
    obtain ⟨edit, found, stepped⟩ := Option.bind_eq_some_iff.mp stepped
    have failed : ∀ base sha,
        ¬ (EditStage.failed = .committing base (.returned sha) ∨ EditStage.failed = .succeeded base sha) :=
      fun base sha given => by rcases given with same | same <;> cases same
    split at stepped
    · cases stepped
    · cases stepped
    · obtain rfl := Option.some.inj stepped
      exact owned.setStage fun base sha given => absurd given (failed base sha)
  | other sha request files =>
    simp only [Repo.step] at stepped
    split at stepped
    · cases stepped
    · obtain ⟨branch, advanced, rfl⟩ := Option.map_eq_some_iff.mp stepped
      exact owned.advance (.inr ⟨sha, request, files, advanced⟩)

/-- The commit `sha` is `base` or below it. -/
def Seen (b : Branch) (base sha : String) : Prop :=
  ∃ (newer : List Commit) (below : Commit) (older : List Commit),
    b.commits = newer ++ below :: older ∧ below.sha = base ∧ ∃ c ∈ below :: older, c.sha = sha

/-- Every edit that succeeded made a commit on its base, and of two of them one had seen the other. -/
structure NothingLost (s : Repo) : Prop where
  made : ∀ edit ∈ s.edits, ∀ base sha, edit.stage = .succeeded base sha →
    MadeOn s.branch edit.id base sha
  seen : ∀ first ∈ s.edits, ∀ second ∈ s.edits, ∀ base sha base' sha',
    first.stage = .succeeded base sha → second.stage = .succeeded base' sha' → sha ≠ sha' →
    Seen s.branch base sha' ∨ Seen s.branch base' sha

/-- Of two commits on their bases one was made by somebody who saw the other. -/
theorem MadeOn.seen {id base sha id' base' sha' : String} (made : MadeOn b id base sha)
    (made' : MadeOn b id' base' sha') (differ : sha ≠ sha') : Seen b base sha' ∨ Seen b base' sha := by
  obtain ⟨newer, older, c, below, commits, rfl, -, -, rfl⟩ := made
  obtain ⟨newer', older', c', below', commits', rfl, -, -, rfl⟩ := made'
  rcases List.append_eq_append_iff.mp (commits.symm.trans commits') with ⟨gap, -, rest⟩ | ⟨gap, -, rest⟩
  · cases gap with
    | nil => exact absurd (congrArg Commit.sha (List.cons.inj rest).1) differ
    | cons top gap =>
      refine .inl ⟨newer ++ [c], below, older, by rw [commits, List.append_assoc]; rfl, rfl, c', ?_, rfl⟩
      rw [(List.cons.inj rest).2]
      exact List.mem_append_right _ List.mem_cons_self
  · cases gap with
    | nil => exact absurd (congrArg Commit.sha (List.cons.inj rest).1).symm differ
    | cons top gap =>
      refine .inr ⟨newer' ++ [c'], below', older', by rw [commits', List.append_assoc]; rfl, rfl, c, ?_,
        rfl⟩
      rw [(List.cons.inj rest).2]
      exact List.mem_append_right _ List.mem_cons_self

/-- **In every run whose commit requests find the head on the edit's base, every edit that succeeded made
its commit directly on top of its base, and of two such edits one was made on top of the other.** -/
theorem edits_on_base {branch : Branch} (run : Run Repo.step OnBase ⟨branch, []⟩ t) :
    NothingLost t := by
  have owned := run.invariant (fun s e t (held : Owned s) on stepped => held.step on stepped)
    (fun edit isEdit => absurd isEdit List.not_mem_nil)
  have made : ∀ edit ∈ t.edits, ∀ base sha, edit.stage = .succeeded base sha →
      MadeOn t.branch edit.id base sha := fun edit isEdit base sha succeeded =>
    owned edit isEdit base sha (.inr succeeded)
  refine ⟨made, fun first isFirst second isSecond base sha base' sha' succeeded succeeded' differ => ?_⟩
  exact (made first isFirst base sha succeeded).seen (made second isSecond base' sha' succeeded') differ

/-! ### Two authors -/

def firstSource : Branch :=
  .root "commit-1" [("README.md", "first"), ("SKILL.md", "Purpose"), ("skill.yaml", "skill: {}")]

/-- Both compare their base with the head before either commits. -/
def bothChecked : List EditEvent :=
  [.start "save-1" (.saveSource "mine" "Purpose" "skill: {}") (some "commit-1"),
    .start "save-2" (.saveFile "README.md" "yours") (some "commit-1"),
    .check "save-1", .check "save-2",
    .request "save-1" "commit-2" .answered, .finish "save-1",
    .request "save-2" "commit-3" .answered, .finish "save-2"]

/-- No commit of the edit's sha has its base as parent. -/
def offBase (s : Repo) (edit : Edit) : Bool :=
  match edit.stage with
  | .succeeded base sha => s.branch.commits.all fun c => !(c.sha == sha && c.parent == some base)
  | _ => false

/-- The second author has not seen what is overwritten. -/
theorem edit_overwrites : ¬ ∀ t, Run Repo.step anyStep ⟨firstSource, []⟩ t →
    NothingLost t := by
  intro always
  obtain ⟨t, followed, off⟩ : ∃ t,
      follow Repo.step anyStep ⟨firstSource, []⟩ bothChecked = some t ∧
      t.edits.any (offBase t) = true :=
    (Option.any_eq_true ..).mp (by decide +kernel)
  obtain ⟨edit, isEdit, off⟩ := List.any_eq_true.mp off
  unfold offBase at off
  split at off
  · rename_i base sha succeeded
    obtain ⟨newer, older, c, below, commits, rfl, -, parent, -⟩ :=
      (always t (run_of_follow followed)).made edit isEdit base sha succeeded
    have isCommit : c ∈ t.branch.commits := by
      rw [commits]
      exact List.mem_append_right _ List.mem_cons_self
    have differs := List.all_eq_true.mp off c isCommit
    rw [parent] at differs
    simp at differs
  · cases off

/-- A save, and a generation that loads its commit. -/
theorem edits_on_base_twice : ∃ t, Run Repo.step OnBase ⟨firstSource, []⟩ t ∧
    t.branch.commits.length = 3 ∧ NothingLost t := by
  obtain ⟨t, followed, three⟩ : ∃ t,
      follow Repo.step OnBase ⟨firstSource, []⟩
        [.start "save-1" (.saveSource "mine" "Purpose" "skill: {}") (some "commit-1"), .check "save-1",
          .request "save-1" "commit-2" .answered, .finish "save-1",
          .start "generation-1" (.generation [("README.md", "mine"), ("SKILL.md", "Steps")] []) none,
          .check "generation-1", .check "generation-1",
          .request "generation-1" "" .answered, .request "generation-1" "" .answered,
          .request "generation-1" "commit-3" .answered, .finish "generation-1"] = some t ∧
      (t.branch.commits.length == 3) = true :=
    (Option.any_eq_true ..).mp (by decide +kernel)
  exact ⟨t, run_of_follow followed, beq_iff_eq.mp three, edits_on_base (run_of_follow followed)⟩

end Psop.Skills
