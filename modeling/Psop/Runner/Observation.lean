import Psop.Json

/-!
The runner's observation and its validation against the turn it answers.

An observation that has passed the schema is checked against the context of the invocation: the
node it names, the references it makes, and, in an evidence evaluation, the requirement ledger.
`validateRequirementResults` is the evidence gate: the decision `continue` needs every required
requirement accepted, by a result of this observation or by the ledger it builds on.
-/
namespace Psop.Runner

open Json

inductive RunnerDecision where
  | continue_ | needMoreEvidence | retry | abort | complete
deriving DecidableEq, Repr

namespace RunnerDecision

def name : RunnerDecision → String
  | continue_ => "continue"
  | needMoreEvidence => "need_more_evidence"
  | retry => "retry"
  | abort => "abort"
  | complete => "complete"

/-- `runner_decision_to_runtime_decision` -/
def runtimeDecision : RunnerDecision → String
  | continue_ => "proceed"
  | needMoreEvidence => "need_more_evidence"
  | retry => "retry"
  | abort => "abort"
  | complete => "complete"

end RunnerDecision

inductive RequirementStatus where
  | accepted | rejected | missing | ambiguous | notApplicable
deriving DecidableEq, Repr

def RequirementStatus.name : RequirementStatus → String
  | .accepted => "accepted"
  | .rejected => "rejected"
  | .missing => "missing"
  | .ambiguous => "ambiguous"
  | .notApplicable => "not_applicable"

theorem RequirementStatus.name_inj {s t : RequirementStatus} (same : s.name = t.name) : s = t := by
  cases s <;> cases t <;> first | rfl | exact absurd same (by decide)

structure RequirementResult where
  requirementKey : String
  status : RequirementStatus
  eventRefs : List String := []
  satisfiedBy : String := ""
  reason : String := ""
deriving Repr

structure EvidenceAssessment where
  evaluatedEventRefs : List String := []
  acceptedEventRefs : List String := []
  rejectedEventRefs : List String := []
  missingEvidence : List String := []
  unsafeOrAmbiguousFacts : List String := []
  requirementResults : List RequirementResult := []
deriving Repr

structure SafetyFlag where
  level : String := ""
  code : String := ""
  message : String := ""
deriving Repr

structure RunnerObservation where
  nodeId : String
  decision : RunnerDecision
  terminalMessage : String := ""
  reason : String := ""
  nextPhase : String := ""
  waitReason : String := ""
  expectedInputs : List String := []
  evidenceAssessment : EvidenceAssessment := {}
  safetyFlags : List SafetyFlag := []
  finalResponse : String := ""
  sourceRefs : List String := []
  confidence : String := "medium"
deriving Repr

/-- What validation reads of the invocation: the node, its mode, and the context built for it. -/
structure RunnerContext where
  nodeId : String
  evidenceEvaluation : Bool
  promptView : Json
  taskIdentity : Json
  runtimeContract : Json
  currentCheckpoint : Json
  evidenceProgress : Json
  terminalEvents : List Json
  latestEvidence : Json
  traceSummary : List Json
  terminalCursor : Json

def maxTerminalMessageChars : Nat := 2000

/-! ### Event references -/

def decimal? (cs : List Char) : Option Int :=
  if cs.isEmpty || cs.any fun c => (Text.digit? c).isNone then none
  else (Text.digits? none cs).map Int.ofNat

/-- The number in `terminal_event:N` or `terminal_event:N:part`. -/
def matchTerminalRef (ref : String) : Option Int :=
  if !Text.startsWith "terminal_event:" ref then none
  else match Text.splitChars ':' (Text.dropLead "terminal_event:" ref).toList with
    | [digits] => decimal? digits
    | [digits, part] => if part.isEmpty || part.any Text.isSpace then none else decimal? digits
    | _ => none

/-- `_terminal_ref_seq` -/
def terminalRefSeq (ref : String) : Option Int := matchTerminalRef (Text.strip ref)

/-- An integer that is not a boolean. -/
def strictInt? : Json → Option Int
  | num n => some n
  | _ => none

def eventRef (seqNo : Int) : String := "terminal_event:" ++ toString seqNo

/-- `_event_refs_for_bundle` and `_collect_terminal_event_refs`: the references one event answers
to. -/
def eventRefs (event : Json) : List String :=
  match strictInt? (event.field "seq_no") with
  | none => []
  | some seqNo => eventRef seqNo :: (event.field "parts").items.filterMap fun part =>
      let partId := Text.strip (part.field "part_id").strOr
      if partId = "" then none else some (eventRef seqNo ++ ":" ++ partId)

namespace RunnerContext

/-- The events a reference may name: the recent ones, the latest evidence and the evidence of the
checkpoint. -/
def refEvents (context : RunnerContext) : List Json :=
  (context.terminalEvents.filter Json.isObj) ++
    (if context.latestEvidence.isObj then [context.latestEvidence] else []) ++
    ((context.currentCheckpoint.field "evidence").items.filter Json.isObj)

/-- `_terminal_event_seq_by_ref` at one reference. -/
def seqByRef (context : RunnerContext) (ref : String) : Option Int :=
  (context.refEvents.find? fun event => decide (ref ∈ eventRefs event)).bind fun event =>
    strictInt? (event.field "seq_no")

/-- `_terminal_cursor` -/
def cursor (context : RunnerContext) : Int :=
  let fallback := ((context.refEvents.filterMap fun event => strictInt? (event.field "seq_no")).max?).getD 0
  match strictInt? context.terminalCursor with
  | some n => if 0 < n then n else fallback
  | none => fallback

/-- `_evidence_requirements`: the ledger entries by trimmed key. -/
def requirements (context : RunnerContext) : Fields :=
  (context.evidenceProgress.field "requirements").items.foldl (fun table item =>
    let key := Text.strip (item.field "requirement_key").strOr
    if item.isObj && key != "" then setKey key item table else table) []

/-- `_is_evidence_contract_v2` -/
def isV2 (context : RunnerContext) : Bool :=
  (context.runtimeContract.field "evidence_contract_version").strOr == "psop-evidence/v2"

/-- `_checkpoint_event_refs` -/
def checkpointEventRefs (context : RunnerContext) : List String :=
  ((context.currentCheckpoint.field "evidence").items.filter Json.isObj).flatMap eventRefs ++
    eventRefs context.latestEvidence

/-- `_visible_terminal_events` at one number. -/
def visibleEvent? (context : RunnerContext) (seqNo : Int) : Option Json :=
  ((context.terminalEvents ++ (if context.latestEvidence.isObj then [context.latestEvidence] else []) ++
    (context.currentCheckpoint.field "evidence").items).filter Json.isObj).find? fun event =>
      strictInt? (event.field "seq_no") == some seqNo

end RunnerContext

def isRequired (requirement : Json) : Bool :=
  ((requirement.field? "required").getD (.bool true)).truthy

def cleanRefs (refs : List String) : List String := (refs.map Text.strip).filter (· ≠ "")

def normalizedText (j : Json) : String := Text.lower (Text.strip j.strOr)

/-- `_event_ref_matches_option` -/
def refMatchesOption (context : RunnerContext) (ref : String) (option : Json) : Bool :=
  match terminalRefSeq ref with
  | none => false
  | some seqNo =>
    let kind := normalizedText (option.field "kind")
    let eventKind := Text.strip (option.field "event_kind").strOr
    let proofMode := normalizedText (option.field "proof_mode")
    if proofMode == "visual" && !(kind == "image" || kind == "video") then false
    else if proofMode == "attestation" && !(kind == "text" || kind == "audio") then false
    else match context.visibleEvent? seqNo with
      | none => false
      | some event =>
        let actual := (event.field "event_kind").strOr
        let logicalAlias := actual == "terminal.multimodal.input.v1" &&
          eventKind == "terminal." ++ kind ++ ".input.v1"
        let parts := (event.field "parts").items.filter Json.isObj
        if eventKind != "" && actual != eventKind && !logicalAlias then false
        else if kind == "" then true
        else match Text.splitOn ':' ref with
          | [_, _, partId] => parts.any fun part =>
              (part.field "part_id").strOr == partId && normalizedText (part.field "kind") == kind
          | _ => (parts.any fun part => normalizedText (part.field "kind") == kind) ||
              (kind == "text" && ((event.field "text").or (event.field "payload_inline")).truthy)

/-- `_requirement_evidence_options` -/
def evidenceOptions (requirement : Json) : List Json :=
  match (requirement.field "evidence_options").items.filter Json.isObj with
  | [] =>
    if (requirement.field "kind").truthy || (requirement.field "event_kind").truthy then
      [obj [("kind", str (requirement.field "kind").strOr),
        ("event_kind", str (requirement.field "event_kind").strOr)]]
    else []
  | options => options

/-! ### The checks -/

abbrev Check := Except String Unit

def require (ok : Bool) (message : String) : Check := if ok then .ok () else .error message

/-- `_validate_terminal_event_ref` -/
def validateTerminalEventRef (context : RunnerContext) (ref : String) : Check :=
  match context.seqByRef ref with
  | none => .error ("source_refs 引用了不存在或不可见的 terminal event：" ++ ref)
  | some seqNo => require (decide (seqNo ≤ context.cursor))
      ("source_refs 引用了晚于 terminal cursor 的 terminal event：" ++ ref)

/-- `_evidence_event_refs` -/
def evidenceEventRefs (assessment : EvidenceAssessment) : List String :=
  let topLevel := if assessment.requirementResults.isEmpty
    then assessment.evaluatedEventRefs ++ assessment.acceptedEventRefs ++ assessment.rejectedEventRefs
    else assessment.evaluatedEventRefs
  (topLevel ++ assessment.requirementResults.flatMap RequirementResult.eventRefs).filter
    fun ref => Text.strip ref ≠ ""

/-- `_validate_evidence_event_refs` -/
def validateEvidenceEventRefs (context : RunnerContext) (refs : List String) : Check :=
  refs.forM fun raw => do
    let ref := Text.strip raw
    require (terminalRefSeq ref).isSome
      ("evidence event refs 只能引用 terminal_event 或 terminal part：" ++ ref)
    validateTerminalEventRef context ref

/-- `_validate_latest_evidence_freshness` -/
def validateLatestEvidenceFreshness (context : RunnerContext) (assessment : EvidenceAssessment) :
    Check :=
  match strictInt? (context.latestEvidence.field "seq_no") with
  | none => .ok ()
  | some latest => do
    require ((cleanRefs assessment.evaluatedEventRefs).any fun ref => terminalRefSeq ref == some latest)
      ("evaluated_event_refs 必须包含最新 evidence " ++ eventRef latest ++ " 或其 part。")
    let resultRefs := assessment.requirementResults.flatMap fun result => cleanRefs result.eventRefs
    let relevant := context.requirements.any fun entry =>
      (evidenceOptions entry.2).any fun option => refMatchesOption context (eventRef latest) option
    require (!relevant || resultRefs.isEmpty ||
        resultRefs.any fun ref => terminalRefSeq ref == some latest)
      ("requirement_results 仍未引用最新 evidence " ++ eventRef latest ++ "；请重新评估受影响 requirement。")

/-- `_validate_satisfied_by` -/
def validateSatisfiedBy (context : RunnerContext) (requirement : Json) (result : RequirementResult) :
    Check :=
  if !context.isV2 then .ok ()
  else
    let key := (requirement.field "requirement_key").strOr
    let satisfiedBy := Text.strip result.satisfiedBy
    if result.status ≠ .accepted then
      require (satisfiedBy == "") ("未 accepted 的 requirement `" ++ key ++ "` 不应声明 satisfied_by。")
    else
      let options := (requirement.field "evidence_options").items.foldl (fun table option =>
        let optionKey := Text.strip (option.field "option_key").strOr
        if option.isObj && optionKey != "" then setKey optionKey option table else table) []
      match lookup satisfiedBy options with
      | none => .error ("accepted requirement `" ++ key ++ "` 的 satisfied_by 必须引用合法 evidence option。")
      | some option => require
          ((cleanRefs result.eventRefs).any fun ref => refMatchesOption context ref option)
          ("requirement `" ++ key ++ "` 的 event_refs 与 evidence option `" ++ satisfiedBy ++ "` 不匹配。")

/-- `_validate_checkpoint_event_refs` -/
def validateCheckpointEventRefs (context : RunnerContext) (refs : List String) : Check :=
  let allowed := context.checkpointEventRefs
  if allowed.isEmpty then .ok ()
  else refs.forM fun ref => require
    (match terminalRefSeq ref with
      | none => false
      | some seqNo => allowed.any fun candidate => terminalRefSeq candidate == some seqNo)
    ("requirement_results 引用了当前 checkpoint 之外的 evidence：" ++ ref)

/-- One round of the loop of `_validate_requirement_results`, over the statuses of the results
before it. -/
def validateResult (context : RunnerContext) (statuses : List (String × RequirementStatus))
    (result : RequirementResult) : Except String (List (String × RequirementStatus)) := do
  let key := Text.strip result.requirementKey
  match lookup key context.requirements with
  | none => .error ("requirement_results 引用了当前 checkpoint 不存在的 requirement_key：" ++ key)
  | some requirement => do
    require (statuses.all fun entry => entry.1 != key)
      ("requirement_results 包含重复 requirement_key：" ++ key)
    let refs := cleanRefs result.eventRefs
    require (!(result.status == .accepted && refs.isEmpty))
      ("accepted requirement `" ++ key ++ "` 必须引用至少一个 terminal event。")
    require (!(result.status == .notApplicable && isRequired requirement))
      ("必选 requirement `" ++ key ++ "` 不允许使用 not_applicable。")
    require (!(result.status == .notApplicable &&
        (!refs.isEmpty || Text.strip result.satisfiedBy != "")))
      ("not_applicable requirement `" ++ key ++ "` 不应包含 event_refs 或 satisfied_by。")
    validateSatisfiedBy context requirement result
    validateCheckpointEventRefs context refs
    .ok (statuses ++ [(key, result.status)])

/-- The status a requirement has after the results: theirs, or the one the ledger holds. -/
def effectiveStatus (statuses : List (String × RequirementStatus)) (key : String)
    (requirement : Json) : String :=
  match statuses.find? fun entry => entry.1 == key with
  | some entry => entry.2.name
  | none => Text.lower (Text.strip ((requirement.field "status").strOr "missing"))

/-- The required requirements that are not accepted after the results. -/
def unresolved (context : RunnerContext) (statuses : List (String × RequirementStatus)) :
    List String :=
  (context.requirements.filter fun entry =>
    isRequired entry.2 && effectiveStatus statuses entry.1 entry.2 != "accepted").map Prod.fst

/-- `_validate_requirement_results` -/
def validateRequirementResults (context : RunnerContext) (decision : RunnerDecision)
    (assessment : EvidenceAssessment) : Check :=
  match assessment.requirementResults with
  | [] => require context.requirements.isEmpty "evidence evaluation 必须提交 requirement_results。"
  | results => do
    require (!context.requirements.isEmpty)
      "requirement_results 需要当前上下文提供 evidence_progress.requirements。"
    let statuses ← results.foldlM (validateResult context) []
    let missing := (context.requirements.map Prod.fst).filter fun key =>
      statuses.all fun entry => entry.1 != key
    require (!context.isV2 || missing.isEmpty)
      ("v2 requirement_results 必须覆盖当前步骤全部 requirements，缺少：" ++ (arr (missing.map str)).repr)
    require (decision != .continue_ || (unresolved context statuses).isEmpty)
      "decision=continue 时所有必选 requirement 必须为 accepted。"

/-- `_normalize_evidence_assessment` -/
def normalizeEvidenceAssessment (context : RunnerContext) (assessment : EvidenceAssessment) :
    EvidenceAssessment :=
  match assessment.requirementResults with
  | [] => assessment
  | results =>
    let refsWith := fun status => Text.unique ((results.filter fun result =>
      result.status == status).flatMap fun result => cleanRefs result.eventRefs)
    let open_ := results.filter fun result =>
      (result.status == .missing || result.status == .rejected || result.status == .ambiguous) &&
        isRequired ((lookup result.requirementKey context.requirements).getD (obj []))
    { assessment with
      acceptedEventRefs := refsWith .accepted
      rejectedEventRefs := refsWith .rejected
      missingEvidence := open_.map fun result =>
        ((((lookup result.requirementKey context.requirements).getD (obj [])).field "description").strOr
          result.requirementKey) }

/-- `_path_exists` -/
def pathExists (payload : Json) (path : String) : Bool :=
  if Text.strip path = "" then false
  else
    let step := fun (current : Option Json) (part : String) => current.bind fun j => match j with
      | obj fs => lookup part fs
      | arr xs => (decimal? part.toList).bind fun n => xs[n.toNat]?
      | _ => none
    match (pathParts path).foldl step (some payload) with
    | none | some null | some (str "") | some (arr []) | some (obj []) => false
    | some _ => true

def segmentAfter (lead ref : String) : String :=
  Text.strip ((Text.splitOn '.' (Text.dropLead lead ref)).headD "")

/-- `_validate_source_refs` at one reference: whether what it names exists. -/
def sourceRefExists (context : RunnerContext) (ref : String) : Bool :=
  let contract := context.runtimeContract
  if Text.startsWith "runtime_contract.workflow_steps." ref then
    (contract.field "workflow_steps").items.any fun step =>
      step.isObj && (step.field "id").strOr != "" &&
        (step.field "id").strOr == segmentAfter "runtime_contract.workflow_steps." ref
  else if Text.startsWith "runtime_contract.expected_evidence." ref then
    ((contract.field "expected_evidence").field?
      (segmentAfter "runtime_contract.expected_evidence." ref)).isSome
  else if Text.startsWith "runtime_contract.wait_checkpoints." ref then
    (contract.field "wait_checkpoints").items.any fun checkpoint =>
      checkpoint.isObj && (checkpoint.field "checkpoint_id").strOr != "" &&
        (checkpoint.field "checkpoint_id").strOr == segmentAfter "runtime_contract.wait_checkpoints." ref
  else if ref ∈ ["runtime_contract.execution_goal", "runtime_contract.applicability",
      "runtime_contract.safety_constraints", "runtime_contract.completion_criteria"] then
    pathExists contract (Text.dropLead "runtime_contract." ref)
  else if Text.startsWith "task_identity." ref then
    pathExists context.taskIdentity (Text.dropLead "task_identity." ref)
  else if Text.startsWith "prompt_view." ref then
    pathExists context.promptView (Text.dropLead "prompt_view." ref)
  else if Text.startsWith "current_checkpoint." ref then
    pathExists context.currentCheckpoint (Text.dropLead "current_checkpoint." ref)
  else if Text.startsWith "trace_summary:" ref then
    let key := Text.strip (Text.dropLead "trace_summary:" ref)
    key != "" &&
      ((match decimal? key.toList with
        | some n => decide (n.toNat < context.traceSummary.length)
        | none => false) ||
      context.traceSummary.any fun item => item.isObj && (item.field "seq_no").strOr == key)
  else false

/-- `_validate_source_refs` -/
def validateSourceRefs (context : RunnerContext) (refs : List String) : Check :=
  refs.forM fun raw => do
    let ref := Text.strip raw
    require (ref != "") "source_refs 不能包含空引用。"
    if (terminalRefSeq ref).isSome then validateTerminalEventRef context ref
    else require (sourceRefExists context ref) ("source_refs 引用了不存在或不支持的引用：" ++ ref)

/-- `_validate_expected_inputs` of the schema. -/
def normalizeExpectedInputs (inputs : List String) : Except String (List String) := do
  let normalized := (inputs.map fun item => Text.lower (Text.strip item)).filter (· ≠ "")
  require (normalized.all fun item => item ∈ ["text", "image", "audio", "video"])
    "expected_inputs 包含不支持的类型"
  .ok normalized

/-- `validate_runner_observation`, after the schema: the observation the runtime works with. -/
def validateRunnerObservation (context : RunnerContext) (observation : RunnerObservation) :
    Except String RunnerObservation := do
  let expected ← normalizeExpectedInputs observation.expectedInputs
  require (context.nodeId == "" || observation.nodeId == context.nodeId)
    ("node_id 必须等于当前 Runtime 节点 ID：" ++ context.nodeId)
  require (decide (observation.terminalMessage.toList.length ≤ maxTerminalMessageChars))
    "terminal_message 超过长度上限：2000"
  require (observation.finalResponse == "" || observation.decision == .complete ||
      observation.decision == .abort)
    "final_response 只允许在 decision=complete 或 decision=abort 时非空。"
  validateSourceRefs context observation.sourceRefs
  if context.evidenceEvaluation then do
    let assessment := observation.evidenceAssessment
    validateEvidenceEventRefs context (evidenceEventRefs assessment)
    validateLatestEvidenceFreshness context assessment
    validateRequirementResults context observation.decision assessment
    .ok { observation with
      expectedInputs := expected
      evidenceAssessment := normalizeEvidenceAssessment context assessment }
  else
    .ok { observation with expectedInputs := expected, evidenceAssessment := {} }

end Psop.Runner
