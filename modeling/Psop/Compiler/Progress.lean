import Mathlib.Data.List.Nodup
import Psop.Runtime.TaskStatus

/-!
The progress a compile job shows.

The payload of a compile job carries the stages of `PUBLISH_PROGRESS_STAGES`; the handler marks one
stage at a time and commits, so that others can read how far it is. `_compile_progress` makes a
percentage of it. Instants are left out.

`stageStatus_mark` says what a mark does. `percent_bounded` says that the percentage of a job that has
not succeeded stays below a hundred as long as the last stage has not succeeded either.
-/
namespace Psop.Compiler

open Psop.Runtime (JobStatus roundHalfEven)

/-! ### Stages -/

inductive StageKey where
  | sourceFrozen | compileRequestCreated | sourceLoaded | manifestChecked | agentCompiling
  | artifactValidating | artifactEmitting | publishFinalizing
deriving DecidableEq, Repr

namespace StageKey

def name : StageKey → String
  | sourceFrozen => "source_frozen"
  | compileRequestCreated => "compile_request_created"
  | sourceLoaded => "source_loaded"
  | manifestChecked => "manifest_checked"
  | agentCompiling => "agent_compiling"
  | artifactValidating => "artifact_validating"
  | artifactEmitting => "artifact_emitting"
  | publishFinalizing => "publish_finalizing"

def label : StageKey → String
  | sourceFrozen => "冻结源码"
  | compileRequestCreated => "创建编译任务"
  | sourceLoaded => "读取冻结源码"
  | manifestChecked => "校验 manifest"
  | agentCompiling => "智能体编译 EG"
  | artifactValidating => "校验 EG artifact"
  | artifactEmitting => "写入编译产物"
  | publishFinalizing => "完成发布"

/-- The place of a stage among the stages. -/
def rank : StageKey → Nat
  | sourceFrozen => 0
  | compileRequestCreated => 1
  | sourceLoaded => 2
  | manifestChecked => 3
  | agentCompiling => 4
  | artifactValidating => 5
  | artifactEmitting => 6
  | publishFinalizing => 7

end StageKey

/-- `PUBLISH_PROGRESS_STAGES` -/
def publishProgressStages : List StageKey :=
  [.sourceFrozen, .compileRequestCreated, .sourceLoaded, .manifestChecked, .agentCompiling,
    .artifactValidating, .artifactEmitting, .publishFinalizing]

inductive StageStatus where
  | pending | running | succeeded | failed
deriving DecidableEq, Repr

structure Stage where
  key : StageKey
  label : String
  status : StageStatus := .pending
  message : String := ""
deriving Repr

/-- The payload of a compile job. -/
structure PublishProgress where
  stages : List Stage
  currentStage : StageKey := .sourceFrozen
  terminal : Bool := false
  terminalStatus : Option JobStatus := none
  errorMessage : String := ""
deriving Repr

/-- The entry of a stage; of two entries with one key a dict keeps the later. -/
def existing (key : StageKey) (stages : List Stage) : Option Stage :=
  stages.reverse.find? fun stage => stage.key == key

def ensurePublishProgressPayload (payload : PublishProgress) : PublishProgress :=
  { payload with stages := publishProgressStages.map fun key =>
      (existing key payload.stages).getD { key := key, label := key.label } }

def markPublishStage (stageKey : StageKey) (status : StageStatus) (message : String)
    (terminalStatus : Option JobStatus) (errorMessage : String) (payload : PublishProgress) :
    PublishProgress :=
  let payload := ensurePublishProgressPayload payload
  { stages := payload.stages.map fun stage =>
      if stage.key = stageKey then { stage with status := status, message := message } else stage
    currentStage := stageKey
    terminal := terminalStatus.isSome || payload.terminal
    terminalStatus := terminalStatus.or payload.terminalStatus
    errorMessage := if errorMessage = "" then payload.errorMessage else errorMessage }

/-- `published_commit_sha[:12]` -/
def shortSha (sha : String) : String := String.ofList (sha.toList.take 12)

def buildPublishProgressPayload (publishedCommitSha : String) : PublishProgress :=
  markPublishStage .compileRequestCreated .succeeded "编译任务已创建。" none ""
    (markPublishStage .sourceFrozen .succeeded
      ("已冻结 commit " ++ shortSha publishedCommitSha ++ "。") none ""
      { stages := publishProgressStages.map fun key => { key := key, label := key.label } })

namespace PublishProgress

variable {payload : PublishProgress} {key other : StageKey} {status : StageStatus}

/-- The status shown for a stage. -/
def stageStatus (key : StageKey) (payload : PublishProgress) : StageStatus :=
  ((existing key payload.stages).map Stage.status).getD .pending

/-- The stages are those of the table, in its order. -/
def Laid (payload : PublishProgress) : Prop := payload.stages.map Stage.key = publishProgressStages

end PublishProgress

open PublishProgress

variable {payload : PublishProgress} {key other : StageKey} {status : StageStatus}
  {message errorMessage : String} {terminalStatus : Option JobStatus}

theorem existing_key {stages : List Stage} {stage : Stage} (found : existing key stages = some stage) :
    stage.key = key := by
  have holds := List.find?_some found
  exact beq_iff_eq.mp holds

/-- One entry for each stage, each with its own key. -/
theorem existing_table {entry : StageKey → Stage} (own : ∀ key, (entry key).key = key)
    (key : StageKey) : existing key (publishProgressStages.map entry) = some (entry key) := by
  cases key <;> simp [existing, publishProgressStages, own]

theorem entry_key (payload : PublishProgress) (key : StageKey) :
    ((existing key payload.stages).getD { key := key, label := key.label }).key = key := by
  cases found : existing key payload.stages with
  | none => rfl
  | some stage => exact existing_key found

theorem laid_mark : (markPublishStage key status message terminalStatus errorMessage payload).Laid := by
  unfold Laid markPublishStage ensurePublishProgressPayload
  simp only [List.map_map]
  refine (List.map_congr_left fun other _ => ?_).trans (List.map_id _)
  simp only [Function.comp_apply, id_eq]
  split
  · exact entry_key payload other
  · exact entry_key payload other

/-- **A mark sets the status of its own stage and no other.** -/
theorem stageStatus_mark :
    (markPublishStage key status message terminalStatus errorMessage payload).stageStatus other =
      if other = key then status else payload.stageStatus other := by
  have kept : ∀ entry : StageKey, (if (((existing entry payload.stages).getD
      { key := entry, label := entry.label }).key = key) then
        { (existing entry payload.stages).getD { key := entry, label := entry.label } with
          status := status, message := message }
      else (existing entry payload.stages).getD { key := entry, label := entry.label }).key = entry := by
    intro entry
    split
    · exact entry_key payload entry
    · exact entry_key payload entry
  unfold stageStatus markPublishStage ensurePublishProgressPayload
  simp only [List.map_map, Function.comp_def]
  rw [existing_table kept other, Option.map_some, Option.getD_some, entry_key]
  split
  · rfl
  · cases existing other payload.stages <;> rfl

@[simp] theorem currentStage_mark :
    (markPublishStage key status message terminalStatus errorMessage payload).currentStage = key := rfl

@[simp] theorem terminalStatus_mark :
    (markPublishStage key status message terminalStatus errorMessage payload).terminalStatus =
      terminalStatus.or payload.terminalStatus := rfl

/-! ### The percentage -/

structure RuntimeJobProgress where
  percent : Nat
  currentStage : String
  label : String
  detail : String
deriving Repr

def fallbackPercent : JobStatus → Nat
  | .succeeded | .failed | .cancelled => 100
  | .running => 50
  | .pending | .retryableFailed => 0

def fallbackLabel : JobStatus → String
  | .pending => "等待执行"
  | .retryableFailed => "等待重试"
  | .running => "执行中"
  | .succeeded => "已成功"
  | .failed => "已失败"
  | .cancelled => "已取消"

/-- The stages that have succeeded. -/
def completedStages (payload : PublishProgress) : Nat :=
  payload.stages.countP fun stage => stage.status == .succeeded

/-- The stage a reader is shown. -/
def activeStage (payload : PublishProgress) : Option Stage :=
  (payload.stages.find? fun stage => stage.key == payload.currentStage ||
    stage.status == .running || stage.status == .failed).or
      payload.stages[min (completedStages payload) (payload.stages.length - 1)]?

/-- `_compile_progress`. With eight stages the division is exact on floats. -/
def compileProgress (status : JobStatus) (lastError : String) (payload : PublishProgress) :
    RuntimeJobProgress :=
  match activeStage payload with
  | none => ⟨fallbackPercent status, "", fallbackLabel status, lastError⟩
  | some active =>
    { percent := if status = .succeeded then 100
        else min 100 (roundHalfEven
          ((2 * completedStages payload + (if active.status = .running then 1 else 0)) * 100)
          (2 * payload.stages.length))
      currentStage := active.key.name
      label := if active.label = "" then fallbackLabel status else active.label
      detail := if active.message ≠ "" then active.message
        else if payload.errorMessage ≠ "" then payload.errorMessage else lastError }

theorem existing_of_laid (laid : payload.Laid) {stage : Stage} (isStage : stage ∈ payload.stages) :
    existing stage.key payload.stages = some stage := by
  have distinct : (payload.stages.map Stage.key).Nodup := by
    rw [laid]
    decide
  cases found : existing stage.key payload.stages with
  | none =>
    exact absurd (beq_self_eq_true stage.key)
      (List.find?_eq_none.mp found stage (List.mem_reverse.mpr isStage))
  | some other =>
    have isOther := List.mem_reverse.mp (List.mem_of_find?_eq_some found)
    rw [List.inj_on_of_nodup_map distinct isOther isStage (existing_key found)]

/-- A stage that has not succeeded is not counted. -/
theorem completed_lt (laid : payload.Laid) (short : payload.stageStatus key ≠ .succeeded) :
    completedStages payload < payload.stages.length := by
  have isKey : key ∈ payload.stages.map Stage.key := by
    rw [laid]
    cases key <;> decide
  obtain ⟨stage, isStage, rfl⟩ := List.mem_map.mp isKey
  refine Nat.lt_of_le_of_ne List.countP_le_length fun all => short ?_
  have succeeded := List.countP_eq_length.mp all stage isStage
  unfold stageStatus
  rw [existing_of_laid laid isStage]
  exact beq_iff_eq.mp succeeded

theorem length_laid (laid : payload.Laid) : payload.stages.length = 8 := by
  rw [← List.length_map, show payload.stages.map Stage.key = publishProgressStages from laid]
  rfl

theorem roundHalfEven_le (n d : Nat) : roundHalfEven n d ≤ n / d + 1 := by
  unfold roundHalfEven
  dsimp only
  split <;> omega

/-- The percentage stays below a hundred while some stage has not succeeded. -/
theorem percent_bounded (laid : payload.Laid) (short : payload.stageStatus key ≠ .succeeded)
    {jobStatus : JobStatus} (unfinished : jobStatus ≠ .succeeded) (lastError : String) :
    (compileProgress jobStatus lastError payload).percent ≤ 94 := by
  have few := completed_lt laid short
  have eight := length_laid laid
  unfold compileProgress
  cases found : activeStage payload with
  | none =>
    have missing := (Option.or_eq_none_iff.mp found).2
    rw [List.getElem?_eq_none_iff] at missing
    omega
  | some active =>
    simp only [unfinished, if_false, eight]
    refine le_trans (Nat.min_le_right _ _) (le_trans (roundHalfEven_le _ _) ?_)
    split <;> omega

end Psop.Compiler
