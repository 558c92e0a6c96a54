import Psop.Runtime.Rows

/-!
The task status of a run: a projection of its artifact, its last token and its own row.

The artifact's workflow steps are the stages. A stage is completed once its evaluation has decided to
proceed or to complete; the current one is named by the wait, or by the phase.
-/
namespace Psop.Runtime

open Json Rows

def RunStatus.name : RunStatus → String
  | .waitingRuntime => "waiting_runtime"
  | .queued => "queued"
  | .running => "running"
  | .waitingInput => "waiting_input"
  | .succeeded => "succeeded"
  | .failed => "failed"
  | .cancelled => "cancelled"
  | .aborted => "aborted"

/-- The skill's own rows, for what an artifact does not say. -/
structure SkillRow where
  key : String
  name : String
  versionNo : Json

structure StageStatus where
  id : String
  index : Nat
  title : String
  goal : String
  status : String
  statusReason : String
deriving Repr, DecidableEq

structure RequirementView where
  requirementKey : String
  description : String
  kind : String
  status : String
  reason : String
deriving Repr, DecidableEq

structure CheckpointStatus where
  checkpointId : String
  reason : String
  expectedInputs : List Json
  acceptedRequirements : Nat
  totalRequirements : Nat
  requirements : List RequirementView
deriving Repr

structure TaskHead where
  skillKey : String
  skillName : String
  versionNo : Json
  executionGoal : String
deriving Repr

structure TaskStatus where
  runId : String
  snapshotSeq : Nat
  runStatus : RunStatus
  activityStatus : String
  task : TaskHead
  completed : Nat
  total : Nat
  percent : Nat
  currentStageId : String
  stages : List StageStatus
  currentCheckpoint : Option CheckpointStatus
deriving Repr

/-! ### Stages -/

def workflowSteps (artifact : Json) : List Json :=
  ((artifact.field "runtime_contract").field "workflow_steps").items.filter fun item =>
    item.isObj && (item.field "id").strOr != ""

def stepId (step : Json) : String := (step.field "id").strOr

def stepIds (artifact : Json) : List String := (workflowSteps artifact).map stepId

/-- `_workflow_step_id_from_phase` -/
def stepIdFromPhase (phase : String) (ids : List String) : String :=
  (["instruct_", "evaluate_"].findSome? fun lead =>
    if Text.startsWith lead phase && decide (Text.dropLead lead phase ∈ ids)
    then some (Text.dropLead lead phase) else none).getD ""

/-- The step's evaluation has decided to leave it. -/
def stepCompleted (token : Json) (id : String) : Bool :=
  match (token.field "observations").field ("evaluate_" ++ id) with
  | obj fs => decide (Text.lower ((lookup "decision" fs).getD null).strOr ∈ ["proceed", "complete"])
  | _ => false

/-- The wait a run is in, if its token or the run itself waits. -/
def activeWait? (run : RunRow) (token : Json) : Option Json :=
  (wait? token).filter fun wait => !wait.fields.isEmpty &&
    ((token.field "status").strOr == "waiting" || run.status == .waitingInput)

def currentStage (artifact : Json) (run : RunRow) (token : Json) : String :=
  let ids := stepIds artifact
  let waits := (activeWait? run token).elim "" fun wait => (wait.field "workflow_step_id").strOr
  let current := if waits ∈ ids then waits
    else stepIdFromPhase ((token.field "phase").or (str run.runtimePhase)).strOr ids
  if current = "" ∧ (run.status = .failed ∨ run.status = .aborted ∨ run.status = .cancelled) then
    let observed := fun key => ((token.field "observations").field? key).isSome
    let started := (workflowSteps artifact).filter fun step => !stepCompleted token (stepId step) &&
      (observed ("instruct_" ++ (step.field "id").toStr) ||
        observed ("evaluate_" ++ (step.field "id").toStr))
    (started.getLast?.map stepId).getD ""
  else current

/-- What a run that ended badly says of its current stage. -/
def terminalStage? : RunStatus → Option String
  | .failed => some "failed"
  | .aborted => some "aborted"
  | .cancelled => some "cancelled"
  | _ => none

def stageStatus (run : RunRow) (token : Json) (current : String) (step : Json) (index : Nat) :
    StageStatus :=
  let id := stepId step
  let wait := activeWait? run token
  let evaluation := (token.field "control").field "latest_evaluation"
  { id := id
    index := index
    title := (step.field "title").strOr id
    goal := (step.field "goal").strOr
    status :=
      if stepCompleted token id then "completed"
      else if id ≠ current then "pending"
      else match terminalStage? run.status with
        | some ended => ended
        | none => if wait.isSome then "waiting_input" else "in_progress"
    statusReason :=
      if id ≠ current then ""
      else match terminalStage? run.status, wait with
        | some _, _ => run.exitReason
        | none, some wait => (wait.field "reason").strOr
        | none, none => if (evaluation.field "node_id").strOr = "evaluate_" ++ id
            then (evaluation.field "reason").strOr else "" }

/-! ### The checkpoint -/

def requirementView (item : Json) : RequirementView :=
  { requirementKey := (item.field "requirement_key").strOr
    description := ((item.field "description").or (item.field "requirement_key")).strOr
    kind := (item.field "kind").strOr
    status := (item.field "status").strOr "missing"
    reason := (item.field "reason").strOr }

/-- `_build_run_task_checkpoint` -/
def checkpointStatus (artifact token : Json) (wait : Option Json) (current : String) :
    Option CheckpointStatus :=
  match wait with
  | none => none
  | some wait =>
    if current = "" then none
    else
      let progress := (evidenceProgress? token).getD (obj [])
      let items := if progressMatchesWait progress wait
        then (progress.field "requirements").items.filter Json.isObj
        else (evidenceRequirements artifact current).map fun item =>
          obj (setKey "reason" (str "") (setKey "status" (str "missing") item.fields))
      let views := (items.map requirementView).filter fun view => view.requirementKey != ""
      some
        { checkpointId := (wait.field "checkpoint_id").strOr
          reason := (wait.field "reason").strOr
          expectedInputs := (wait.field "expected_inputs").items
          acceptedRequirements := views.countP fun view => view.status == "accepted"
          totalRequirements := views.length
          requirements := views }

/-! ### The whole -/

/-- `round`, on a fraction: halves go to the even neighbour. -/
def roundHalfEven (n d : Nat) : Nat :=
  let up := d < 2 * (n % d) ∨ d = 2 * (n % d) ∧ (n / d) % 2 = 1
  if up then n / d + 1 else n / d

/-- `_run_task_activity_status` -/
def activityStatus (run : RunRow) (token : Json) (current : String) (completed total : Nat) : String :=
  if run.status.finished then run.status.name
  else if run.status = .waitingInput ∨ (token.field "status").strOr = "waiting" then "waiting_input"
  else if total ≠ 0 ∧ completed = total then "finalizing"
  else if current ≠ "" then "running"
  else if run.status = .waitingRuntime ∨ run.status = .queued then "initializing"
  else "running"

/-- `_build_run_task_status_response` -/
def taskStatus (skill : SkillRow) (artifact : Json) (rows : Rows) : TaskStatus :=
  let token := (rows.lastSnapshot?.map Snapshot.token).getD (obj [])
  let steps := workflowSteps artifact
  let current := currentStage artifact rows.run token
  let completed := ((Text.unique (stepIds artifact)).filter (stepCompleted token)).length
  let named := artifact.field "skill"
  { runId := rows.run.id
    snapshotSeq := (rows.lastSnapshot?.map Snapshot.seqNo).getD rows.run.latestSnapshotSeq
    runStatus := rows.run.status
    activityStatus := activityStatus rows.run token current completed steps.length
    task :=
      { skillKey := ((named.field "key").or (str skill.key)).strOr
        skillName := ((named.field "name").or (str skill.name)).strOr
        versionNo := (named.field "version_no").or skill.versionNo
        executionGoal := ((artifact.field "runtime_contract").field "execution_goal").strOr }
    completed := completed
    total := steps.length
    percent := if steps.isEmpty then 0 else roundHalfEven (completed * 100) steps.length
    currentStageId := current
    stages := (steps.zipIdx 1).map fun step => stageStatus rows.run token current step.1 step.2
    currentCheckpoint := checkpointStatus artifact token (activeWait? rows.run token) current }

end Psop.Runtime
