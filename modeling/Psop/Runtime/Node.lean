import Psop.Heap
import Psop.Runtime.Graph
import Psop.Runner.Observation

/-!
One node of the loop: what executing it observes, what merging the observation writes, and what the
node's interaction then does to the token.

The observation of a language-model node is the runner's, validated against the context the node's
token gives it. `applyNodeInteraction` runs in the order of the source: the evaluation's transition is
resolved before anything is written, the ledger is merged, a wait is entered and may be received at
once, an output is chosen, and last the decision moves the phase. Where a stage fails, the token is
returned as the failed stage left it, since a recoverable failure keeps that token.
-/
namespace Psop.Runtime

open Json Psop.Runner

/-- How an exception that ends a step reads. -/
inductive Failure where
  | timeout
  | error (message : String)
deriving DecidableEq, Repr

def Failure.text : Failure → String
  | .timeout => "Runtime 节点执行超过总时限。"
  | .error message => message

/-- An operation on a value of the wrong type; the interpreter's own wording is not modelled. -/
def typeError : Failure := .error "TypeError"

structure AgentUsage where
  llmCalls : Int := 0
  inputTokens : Int := 0
  outputTokens : Int := 0
  totalTokens : Int := 0
deriving Repr

/-- What else is noted of an invocation: the size of its context, the roles of its attachments and the
codes of the validations that failed in it. -/
structure InvocationRecord where
  contextChars : Nat := 0
  attachmentRoles : List String := []
  validatorFailureCodes : List String := []
deriving Repr

/-- What an invocation of the runner agent brings back. -/
inductive AgentOutcome where
  | timedOut
  | failed (message : String)
  | observed (agentRunId : String) (usage : AgentUsage) (observation : RunnerObservation)
    (record : InvocationRecord := {})
deriving Repr

/-! ### Execution -/

/-- `_actor_name` -/
def actorName (actor : Json) : String :=
  match actor with
  | str name => name
  | obj fields =>
    match lookup "name" fields with
    | some (str name) => name
    | _ =>
      match (actor.field "type").str? with
      | some "llm" => "agent.llm"
      | some "tool" => "capability.demo_tool"
      | some "runtime" =>
        match actor.field "operation" with
        | str operation => "runtime." ++ operation
        | _ => ""
      | _ => ""
  | _ => ""

/-- `_extract_user_input` -/
def extractUserInput (envelope artifact : Json) : String :=
  let inputName := ((artifact.field "schema").field "input_name").or
    (((artifact.field "interface").field? "input_name").getD (str "user_input"))
  let named := inputName.str?.bind fun name => envelope.field? name
  match named, envelope.field? "user_input", envelope.field? "text" with
  | some value, _, _ => value.toStr
  | none, some value, _ => value.toStr
  | none, none, some value => value.toStr
  | none, none, none => envelope.dumps

/-- `_last_observation_content` -/
def lastObservationContent (token : Json) : String :=
  let contents := (token.field "observations").fields.reverse.filterMap fun entry =>
    let content := ((entry.2.field "content").or (entry.2.field "final_response")).or
      (entry.2.field "summary")
    if content.truthy then some content.toStr else none
  contents.headD ""

/-- `_run_demo_tool` -/
def runDemoTool (userInput llmOutput : String) : Json :=
  obj [("tool_name", str "psop.demo.inspect_input"), ("input_length", num userInput.toList.length),
    ("llm_output_length", num llmOutput.toList.length),
    ("contains_question", .bool (Text.contains "?" userInput || Text.contains "？" userInput)),
    ("result", str "demo tool 已完成输入检查。")]

/-- `_compose_final_output` -/
def composeFinalOutput (llmOutput : String) (tool : Json) : String :=
  Text.strip llmOutput ++ "\n\n---\n工具检查：" ++ (tool.field "result").toStr ++ "输入长度 " ++
    (tool.field "input_length").toStr ++ "，是否包含问题：" ++
    (if (tool.field "contains_question").truthy then "是" else "否") ++ "。"

/-- `_runner_prompt_view` -/
def runnerPromptView (projectionRef : String) (node token : Json) : Json :=
  let dictOf := fun key => obj (token.field key).fields
  obj [("token_projection_ref", str projectionRef), ("phase", token.field "phase"),
    ("input", dictOf "input_envelope"), ("facts", dictOf "facts"),
    ("control", obj (["wait", "latest_evidence", "latest_evaluation"].filterMap fun key =>
      ((token.field "control").field? key).map fun value => (key, value))),
    ("observations", dictOf "observations"),
    ("node", obj [("id", node.field "id"), ("kind", node.field "kind"),
      ("actor", node.field "actor"), ("interaction", interaction node),
      ("policy", obj (node.field "policy").fields)])]

/-- `_runner_task_identity` -/
def runnerTaskIdentity (artifact : Json) : Json :=
  let skill := obj (artifact.field "skill").fields
  obj [("skill_key", str (skill.field "key").strOr), ("name", str (skill.field "name").strOr),
    ("description", str (skill.field "description").strOr),
    ("version", match skill.field "version_no" with
      | null => skill.field "version"
      | version => version)]

/-- `_runner_current_checkpoint` -/
def runnerCurrentCheckpoint (runId : String) (node token : Json) : Json :=
  match isEvaluation node, wait? token with
  | true, some wait => wait
  | _, _ =>
    obj [("checkpoint_id", str (checkpointId node)), ("workflow_step_id", str (workflowStepId node)),
      ("reason", str ((interaction node).field "wait_reason").strOr),
      ("expected_inputs", arr ((interaction node).field "expected_inputs").items),
      ("resume_phase", str (((interaction node).field "resume_phase").strOr
        ("evaluate_" ++ (node.field "id").toStr))),
      ("status", str (if ((interaction node).field "wait_after_output").truthy then "pending" else "")),
      ("run_id", str runId), ("evidence", arr [])]

/-- `_runner_evidence_progress` -/
def runnerEvidenceProgress (now : String) (artifact node token : Json) : Json :=
  match wait? token with
  | none => obj []
  | some wait =>
    if wait.fields.isEmpty then obj []
    else
      let progress := (evidenceProgress? token).getD (obj [])
      if progressMatchesWait progress wait then progress
      else buildEvidenceProgress now (nodeId node) wait artifact

/-- `_build_runner_context`, the part validation reads. -/
def buildRunnerContext (now runId projectionRef : String) (artifact node token : Json) :
    RunnerContext :=
  let events := tokenEvents token
  let latest := (token.field "control").field "latest_evidence"
  { nodeId := nodeId node
    evidenceEvaluation := isEvaluation node
    promptView := runnerPromptView projectionRef node token
    taskIdentity := runnerTaskIdentity artifact
    runtimeContract := obj (artifact.field "runtime_contract").fields
    currentCheckpoint := runnerCurrentCheckpoint runId node token
    evidenceProgress := if isEvaluation node then runnerEvidenceProgress now artifact node token
      else obj []
    terminalEvents := events.drop (events.length - 20)
    latestEvidence := if isEvaluation node && latest.isObj then latest else obj []
    traceSummary := (token.field "trace").items
    terminalCursor := ((token.at? ["metadata", "terminal_cursor"]).getD null).or (num 0) }

def requirementResultJson (result : RequirementResult) : Json :=
  obj [("requirement_key", str result.requirementKey), ("status", str result.status.name),
    ("event_refs", arr (result.eventRefs.map str)), ("satisfied_by", str result.satisfiedBy),
    ("reason", str result.reason)]

def assessmentJson (assessment : EvidenceAssessment) : Json :=
  obj [("evaluated_event_refs", arr (assessment.evaluatedEventRefs.map str)),
    ("accepted_event_refs", arr (assessment.acceptedEventRefs.map str)),
    ("rejected_event_refs", arr (assessment.rejectedEventRefs.map str)),
    ("missing_evidence", arr (assessment.missingEvidence.map str)),
    ("unsafe_or_ambiguous_facts", arr (assessment.unsafeOrAmbiguousFacts.map str)),
    ("requirement_results", arr (assessment.requirementResults.map requirementResultJson))]

def safetyFlagJson (flag : SafetyFlag) : Json :=
  obj [("level", str flag.level), ("code", str flag.code), ("message", str flag.message)]

def usageJson (usage : AgentUsage) : Json :=
  obj [("llm_calls", num usage.llmCalls), ("input_tokens", num usage.inputTokens),
    ("output_tokens", num usage.outputTokens), ("total_tokens", num usage.totalTokens)]

/-- `_runner_evaluation_terminal_seq` -/
def runnerEvaluationTerminalSeq (evaluation : Json) : Int :=
  match strictInt? (evaluation.field "based_on_terminal_seq") with
  | some direct => direct
  | none =>
    let assessment := evaluation.field "evidence_assessment"
    let refs := (assessment.field "evaluated_event_refs").items ++
      ((assessment.field "requirement_results").items.filter Json.isObj).flatMap fun result =>
        (result.field "event_refs").items
    ((refs.filterMap fun ref => matchTerminalRef ref.toStr).max?).getD 0

/-- What `_execute_runner_agent_node` adds to the runner's record, for the token before its charge. -/
def runnerRecord (record : InvocationRecord) (token : Json) (observation : RunnerObservation) : Fields :=
  let latest := (strictInt? (token.getPath "control.latest_evidence.seq_no")).getD 0
  let previous := runnerEvaluationTerminalSeq (token.getPath "control.latest_evaluation")
  let named := observation.evidenceAssessment.requirementResults.filter fun result =>
    result.requirementKey != ""
  [("latest_evidence_seq", num latest), ("previous_evaluation_seq", num previous),
    ("stale_gap", num (if previous = 0 then latest else max 0 (latest - previous))),
    ("context_chars", num record.contextChars),
    ("attachment_roles", arr (record.attachmentRoles.map str)),
    ("validator_failure_codes", arr ((record.validatorFailureCodes.filter (· != "")).map str)),
    ("effective_requirement_statuses", obj (named.foldl (fun statuses result =>
      setKey result.requirementKey (str result.status.name) statuses) []))]

/-- `_map_runner_observation_to_runtime_observation`, with what is then added to the runner's record. -/
def mapRunnerObservation (agentRunId : String) (usage : AgentUsage) (added : Fields)
    (observation : RunnerObservation) : Json :=
  let message := if observation.terminalMessage = "" then observation.finalResponse
    else observation.terminalMessage
  let decision := observation.decision.runtimeDecision
  obj [("content", str message), ("decision", str decision), ("reason", str observation.reason),
    ("next_phase", str observation.nextPhase), ("terminal_message", str message),
    ("wait_reason", str observation.waitReason),
    ("expected_inputs", arr (observation.expectedInputs.map str)),
    ("evidence_assessment", assessmentJson observation.evidenceAssessment),
    ("safety_flags", arr (observation.safetyFlags.map safetyFlagJson)),
    ("final_response", str observation.finalResponse),
    ("runner", obj ([("agent_key", str "psop.runner"), ("agent_run_id", str agentRunId),
      ("artifact_ref", str "sandbox://outputs/runner-observation.json"),
      ("source_refs", arr (observation.sourceRefs.map str)),
      ("safety_flags", arr (observation.safetyFlags.map safetyFlagJson)),
      ("original_decision", str observation.decision.name),
      ("suggested_next_phase", str observation.nextPhase)] ++ added)),
    ("usage", usageJson usage), ("summary", str ("Runner decision: " ++ decision))]

/-- `budgets[key] = int(budgets.get(key, 0)) + amount` -/
def addBudget (key : String) (amount : Int) (token : Json) : Option Json := do
  let spent ← ((token.at? ["budgets", key]).getD (num 0)).toInt?
  token.put? ["budgets", key] (num (spent + amount))

/-- The calls and tokens of an invocation are added to the token's budgets. -/
def accumulateUsage (usage : AgentUsage) (token : Json) : Option Json := do
  let token ← addBudget "llm_calls" usage.llmCalls token
  let token ← addBudget "llm_input_tokens" usage.inputTokens token
  let token ← addBudget "llm_output_tokens" usage.outputTokens token
  addBudget "llm_total_tokens" usage.totalTokens token

/-- `_execute_runner_agent_node` -/
def executeRunnerAgentNode (now runId projectionRef : String) (artifact node token : Json) :
    AgentOutcome → Except Failure (Json × Json)
  | .timedOut => .error .timeout
  | .failed message => .error (.error message)
  | .observed agentRunId usage observation record =>
    match validateRunnerObservation (buildRunnerContext now runId projectionRef artifact node token)
        observation with
    | .error message => .error (.error message)
    | .ok validated => match accumulateUsage usage token with
      | none => .error typeError
      | some charged =>
        .ok (mapRunnerObservation agentRunId usage (runnerRecord record token validated) validated, charged)

/-- `_execute_node`: the observation, and the token with its budgets charged. -/
def executeNode (now runId projectionRef : String) (artifact node token : Json)
    (outcome : AgentOutcome) : Except Failure (Json × Json) :=
  let kind := node.field "kind"
  let actor := actorName (node.field "actor")
  let runs := fun word name => kind.str? == some word || actor == name
  let first := fun path path' => ((token.getPath path).or (token.getPath path')).strOr
  if runs "start" "runtime.start" then
    .ok (obj [("started", .bool true), ("summary", str "Runtime 已初始化 Session Token。")], token)
  else if runs "input" "runtime.input" then
    let userInput := extractUserInput ((token.field? "input_envelope").getD (obj [])) artifact
    .ok (obj [("user_input", str userInput), ("summary", str "已接收用户输入。")], token)
  else if runs "llm" "agent.llm" then
    executeRunnerAgentNode now runId projectionRef artifact node token outcome
  else if runs "tool" "capability.demo_tool" then
    let userInput := extractUserInput ((token.field? "input_envelope").getD (obj [])) artifact
    let content := first "observations.llm.content" "observations.plan_repair.content"
    let llmOutput := if content = "" then lastObservationContent token else content
    match addBudget "tool_calls" 1 token with
    | none => .error typeError
    | some token => .ok (runDemoTool userInput llmOutput, token)
  else if runs "terminal" "runtime.terminal" then
    let content := first "observations.llm.content" "observations.plan_repair.content"
    let tool := token.getPath "observations.tool"
    let final := if content ≠ "" ∧ tool.isObj ∧ (tool.field "result").truthy
      then composeFinalOutput content tool
      else ((((token.getPath "outputs.final_response").or (str content)).or
        (str (lastObservationContent token))).or (str "Run 已完成。")).toStr
    .ok (obj [("final_response", str final), ("summary", str "Run 已完成。")], token)
  else .error (.error ("Unsupported runtime node actor: " ++
    if actor = "" then kind.toStr else actor))

/-! ### Merging -/

/-- The path a merge operation writes, if it is a well-formed `set`. -/
def mergeTarget? (operation : Json) : Option String :=
  if (operation.field "op").str? = some "set" then (operation.field "path").str? else none

theorem isObj_null : null.isObj = false := rfl

/-- `_get_path` of a value on the heap. -/
def heapPath (h : Heap) (path : String) (v : Value) : Value :=
  if path = "" then .plain null isObj_null else (h.walk (pathParts path) v).getD (.plain null isObj_null)

/-- `_resolve_merge_source`: an object is handed on by reference. -/
def resolveMergeSource (source : String) (h : Heap) (token observation : Value) : Value :=
  if Text.startsWith "observation." source then
    heapPath h (Text.dropLead "observation." source) observation
  else if source = "observation" then observation
  else if Text.startsWith "token." source then heapPath h (Text.dropLead "token." source) token
  else if Text.startsWith "input." source then
    match h.walk ["input_envelope"] token with
    | some envelope => heapPath h (Text.dropLead "input." source) envelope
    | none => .plain null isObj_null
  else .plain null isObj_null

/-- The value an operation stores, with the heap it is on. -/
def mergeValue (token observation : Value) (operation : Json) (h : Heap) : Value × Heap :=
  match operation.field? "value" with
  | some value => Heap.load value h
  | none => (resolveMergeSource (operation.field "from").toStr h token observation, h)

def mergeOperation (token : Nat) (observation : Value) (h : Heap) (operation : Json) : Heap :=
  match mergeTarget? operation with
  | none => h
  | some path =>
    let (value, h) := mergeValue (.ref token) observation operation h
    h.set (pathParts path) value token

/-- `next_token.setdefault("observations", {}).setdefault(node_id, observation)` -/
def fileObservation (token : Nat) (nodeId : String) (observation : Value) (h : Heap) : Option Heap :=
  match h.walk ["observations"] (.ref token) with
  | some (.plain _ _) => none
  | _ =>
    if (h.walk ["observations", nodeId] (.ref token)).isSome then some h
    else some (h.set ["observations", nodeId] observation token)

/-- The token and the observation as a merge holds them, each under its address; `cell` are the entries
the caller's own dictionary keeps. -/
structure Merge where
  token : Nat
  observation : Nat
  cell : Cell
  heap : Heap

/-- The copy of the token, and the observation without its request. -/
def Merge.of (observation token : Json) : Option Merge :=
  match Heap.load token [] with
  | (.plain _ _, _) => none
  | (.ref root, h) =>
    let (cell, h) := Heap.loadFields observation.fields h
    some ⟨root, h.length, cell, h ++ [popKey "_trace_request" cell]⟩

/-- The heap after some of a node's operations. -/
def Merge.after (m : Merge) (operations : List Json) : Heap :=
  operations.foldl (mergeOperation m.token (.ref m.observation)) m.heap

/-- `_merge_observation`: the merged token, and what its operations have made of the observation. The
token is copied first, but operations store the objects of the observation and of the copy by reference.
A token that comes to hold itself can neither be stored nor recovered; it is left undefined. -/
def mergeObservation (node observation token : Json) : Option (Json × Json) := do
  let m ← Merge.of observation token
  let h ← fileObservation m.token (node.field "id").toStr (.ref m.observation)
    (m.after (node.field "merge").items)
  let merged ← h.read h.length (.ref m.token)
  let seen ← m.cell.mapM fun entry => (h.read h.length entry.2).map (Prod.mk entry.1)
  some (merged, obj seen)

/-- The path of the token an operation takes its value from. -/
def mergeSource? (operation : Json) : Option (List String) :=
  let source := (operation.field "from").toStr
  if (operation.field? "value").isSome then none
  else if Text.startsWith "token." source then some (pathParts (Text.dropLead "token." source))
  else if Text.startsWith "input." source then
    some ("input_envelope" :: pathParts (Text.dropLead "input." source))
  else none

/-- A key is on no path that an operation writes along or takes its value from. -/
def OperationSpares (key : String) (operation : Json) : Prop :=
  ∀ path ∈ mergeTarget? operation, key ∉ pathParts path ∧
    ((operation.field? "value").isSome = true ∨ key ∉ pathParts (operation.field "from").toStr)

instance (key : String) (operation : Json) : Decidable (OperationSpares key operation) :=
  inferInstanceAs (Decidable (∀ path ∈ mergeTarget? operation, key ∉ pathParts path ∧
    ((operation.field? "value").isSome = true ∨ key ∉ pathParts (operation.field "from").toStr)))

/-- An operation neither writes along a path of the token nor takes its value from along it. -/
def OperationApart (operation : Json) (p : List String) : Prop :=
  ∀ path ∈ mergeTarget? operation, Apart (pathParts path) p ∧
    ∀ source ∈ mergeSource? operation, Apart source p

instance (operation : Json) (p : List String) : Decidable (OperationApart operation p) :=
  inferInstanceAs (Decidable (∀ path ∈ mergeTarget? operation, Apart (pathParts path) p ∧
    ∀ source ∈ mergeSource? operation, Apart source p))

/-! ### Interaction -/

/-- `_terminal_message_from_observation` -/
def terminalMessage (observation : Json) : String :=
  let value := (((observation.field "terminal_message").or (observation.field "content")).or
    (observation.field "final_response")).or (observation.field "summary")
  match value with
  | null => ""
  | value => Text.strip value.toStr

/-- `str(observation.get("decision") or "").strip().lower()` -/
def decisionOf (observation : Json) : String :=
  Text.lower (Text.strip (observation.field "decision").strOr)

/-- `_evaluation_summary` -/
def evaluationSummary (node observation : Json) : Fields :=
  let assessment := observation.field "evidence_assessment"
  let seqs := (assessment.field "evaluated_event_refs").items.filterMap fun ref =>
    matchTerminalRef ref.strOr
  [("node_id", str (nodeId node)), ("decision", str (observation.field "decision").strOr),
    ("reason", str (observation.field "reason").strOr),
    ("next_phase", str (observation.field "next_phase").strOr),
    ("terminal_message", str (observation.field "terminal_message").strOr),
    ("based_on_terminal_seq", num ((seqs.max?).getD 0))] ++
    (if assessment.isObj then [("evidence_assessment", assessment)] else []) ++
    (if (observation.field "final_response").truthy
      then [("final_response", str (observation.field "final_response").strOr)] else [])

def leavingDecisions : List String := ["proceed", "complete", "abort"]

/-- The decision of an evaluation and the node it leads to; fails where it should lead somewhere and
does not. -/
def resolveDecision (artifact node observation : Json) : Except Failure (String × String) :=
  if !isEvaluation node then .ok ("", "")
  else
    let decision := decisionOf observation
    if decision ∈ leavingDecisions then
      let target := resolveEvaluationTransition artifact node decision
      if target = "" then
        .error (.error ("Evaluation node `" ++ (node.field "id").toStr ++
          "` has no runtime transition for decision `" ++ decision ++ "`."))
      else .ok (decision, target)
    else .ok (decision, "")

/-- The wait of a node that asks for one: entered, and received at once by inputs already there.
The second component says whether it was entered, the third whether it was received. -/
def waitAfterOutput (now runId : String) (latestTerminalSeq : Int) (events : List TerminalEvent)
    (artifact node observation : Json) (turnAccept : Int) (token : Json) :
    Option (Json × Bool × Bool) :=
  if !((interaction node).field "wait_after_output").truthy then some (token, false, false)
  else do
    let checkpoint := waitAcceptAfterSeq turnAccept token
    let acceptAfterSeq := if hasPriorWait token then max checkpoint latestTerminalSeq else checkpoint
    let token ← enterWaitCheckpoint now runId node observation artifact acceptAfterSeq token
    let (token, resumed) ← consumePendingTerminalInputs now latestTerminalSeq events token
    some (token, !resumed, resumed)

/-- `_should_suppress_evaluation_terminal_output` -/
def suppressesOutput (artifact node : Json) (decision target : String) : Bool :=
  isEvaluation node && (decision == "complete" || decision == "abort") && target != "" &&
    entersTerminal artifact target

/-- A message for the terminal and its media type. -/
structure TerminalOutput where
  mimeType : String
  message : String
deriving Repr, DecidableEq

def chooseOutput (artifact node observation : Json) (decision target : String) (resumed : Bool) :
    Option TerminalOutput :=
  let message := terminalMessage observation
  let wanted := ((interaction node).field "output_to_terminal").truthy ||
    (isEvaluation node && message != "")
  if wanted && !(resumed || suppressesOutput artifact node decision target) && message != "" then
    some ⟨((interaction node).field "output_mime_type").strOr "text/markdown", message⟩
  else none

/-- The wait goes back to waiting after `retry` and `need_more_evidence`, if there is one. -/
def reopenWait (observation token : Json) : Option (Json × Bool) :=
  match wait? token with
  | none => some (token, false)
  | some wait => do
    let reason := ((observation.field "reason").or (wait.field "reason")).strOr "等待更多现场证据。"
    let token ← token.put? ["control", "wait", "status"] (str "waiting")
    let token ← token.put? ["control", "wait", "reason"] (str reason)
    let token ← token.put? ["status"] (str "waiting")
    let token ← token.put? ["phase"] (str "waiting")
    some (token, true)

def abortRecord (now target : String) (node observation : Json) : Json :=
  obj [("requested_by_node", str (nodeId node)), ("reason", str (observation.field "reason").strOr),
    ("next_phase", str (Text.strip (observation.field "next_phase").strOr)),
    ("resolved_next_phase", str target), ("occurred_at", str now)]

def abortToken (now target : String) (artifact node observation token : Json) : Option Json := do
  let message := terminalMessage observation
  let final := if message = "" then (observation.field "reason").strOr "任务已终止。" else message
  let token ← token.put? ["outputs", "final_response"] (str final)
  let token ← token.put? ["control", "abort"] (abortRecord now target node observation)
  if entersAbortedTerminal artifact target then token.put? ["phase"] (str target)
  else (token.put? ["status"] (str "aborted")).bind fun token => token.put? ["phase"] (str "aborted")

/-- What the decision of an evaluation does to the token, and whether it waits again. -/
def applyDecision (now decision target : String) (artifact node observation token : Json) :
    Option (Json × Bool) :=
  if decision = "retry" ∨ decision = "need_more_evidence" then reopenWait observation token
  else if decision = "abort" then
    (abortToken now target artifact node observation token).map fun token => (token, false)
  else if decision = "proceed" ∨ decision = "complete" then
    (token.put? ["phase"] (str target)).map fun token => (token, false)
  else some (token, false)

def latestEvaluation (target : String) (node observation : Json) : Json :=
  obj (if target = "" then evaluationSummary node observation
    else setKey "resolved_next_phase" (str target) (evaluationSummary node observation))

/-- What applying an interaction leaves: the token, an output for an open session, and whether a wait
was entered or what failed. -/
structure Applied where
  token : Json
  output : Option TerminalOutput
  outcome : Except Failure Bool

/-- The last stage: an evaluation is recorded and its decision applied. -/
def concludeInteraction (now decision target : String) (artifact node observation : Json)
    (output : Option TerminalOutput) (enteredWait : Bool) (token : Json) : Applied :=
  if !isEvaluation node then ⟨token, output, .ok enteredWait⟩
  else
    match token.put? ["control", "latest_evaluation"] (latestEvaluation target node observation) with
    | none => ⟨token, output, .error typeError⟩
    | some noted =>
      match applyDecision now decision target artifact node observation noted with
      | none => ⟨noted, output, .error typeError⟩
      | some (decided, waits) => ⟨decided, output, .ok (enteredWait || waits)⟩

/-- `_apply_node_interaction` -/
def applyNodeInteraction (now runId : String) (latestTerminalSeq : Int)
    (events : List TerminalEvent) (artifact node observation : Json) (turnAccept : Int)
    (token : Json) : Applied :=
  match resolveDecision artifact node observation with
  | .error failure => ⟨token, none, .error failure⟩
  | .ok (decision, target) =>
    let ledgered := if isEvaluation node
      then mergeEvidenceProgress now (nodeId node) artifact observation token else some token
    match ledgered with
    | none => ⟨token, none, .error typeError⟩
    | some ledgered =>
      match waitAfterOutput now runId latestTerminalSeq events artifact node observation turnAccept
          ledgered with
      -- A wait that fails half way has already replaced the one before it.
      | none => ⟨(ledgered.put? ["control", "wait"]
          (newWait now runId node observation turnAccept)).getD ledgered, none, .error typeError⟩
      | some (waited, enteredWait, resumed) =>
        concludeInteraction now decision target artifact node observation
          (chooseOutput artifact node observation decision target resumed) enteredWait waited

/-! ### Recovery and cancellation -/

/-- `_is_recoverable_terminal_turn_failure` -/
def isRecoverable (token : Json) : Bool :=
  match wait? token, token.at? ["control", "latest_evidence"] with
  | some wait, some (obj evidence) =>
    ((lookup "direction" evidence).getD null).str? == some "input" &&
      ((wait.field "status").str? == some "received" || (wait.field "status").str? == some "processing")
  | _, _ => false

/-- A row of `trace_event`, as far as a token quotes it. -/
structure TraceRef where
  id : String
  seqNo : Int
deriving Repr

def errorEntry (now error : String) (trace : TraceRef) : Json :=
  obj [("trace_event_id", str trace.id), ("trace_seq_no", num trace.seqNo), ("error", str error),
    ("occurred_at", str now)]

def processingError (now : String) (trace : TraceRef) : Json :=
  obj [("trace_event_id", str trace.id), ("trace_seq_no", num trace.seqNo),
    ("recoverable", .bool true), ("occurred_at", str now)]

/-- The failure message joins the copied events only where it is the next one. -/
def appendIfNext (event : Option TerminalEvent) (token : Json) : Option Json := do
  let cursor ← cursor? token
  match event with
  | none => some token
  | some event =>
    if (event.seqNo : Int) ≠ cursor + 1 then some token
    else do
      let token ← token.push? ["terminal", "events"] (obj event.payloadFields)
      let token ← token.put? ["terminal", "latest_seq"] (num event.seqNo)
      token.put? ["metadata", "terminal_cursor"] (num event.seqNo)

def noteFailure (now error : String) (trace : TraceRef) (token : Json) : Option Json :=
  match wait? token with
  | none => some token
  | some _ => do
    let token ← token.put? ["control", "wait", "status"] (str "waiting")
    token.push? ["control", "wait", "recoverable_errors"] (errorEntry now error trace)

/-- `_recover_terminal_turn_token` -/
def recoverTerminalTurnToken (now error : String) (trace : TraceRef)
    (event : Option TerminalEvent) (token : Json) : Option Json := do
  let token ← noteFailure now error trace token
  let token ← token.put? ["control", "latest_processing_error"] (processingError now trace)
  let token ← token.put? ["status"] (str "waiting")
  let token ← token.put? ["phase"] (str "waiting")
  appendIfNext event token

/-- The token of `_append_cancel_snapshot`. -/
def cancelToken (now runId reason : String) (token : Json) : Option Json := do
  let token ← token.put? ["status"] (str "cancelled")
  let token ← token.put? ["phase"] (str "cancelled")
  let token ← token.pop? "control" "wait"
  token.put? ["control", "cancelled"] (obj [("reason", str reason), ("cancelled_at", str now),
    ("run_id", str runId)])

end Psop.Runtime
