import Psop.Compiler.Formal

/-!
The scaffold builder: from a list of workflow steps to a complete artifact.

`normalizeScaffoldSteps` reads the steps a compiler agent submits, gives every step, requirement and
option an identifier of its own and fills in what is missing. `scaffoldArtifact` unfolds the steps into
a chain of instruct and evaluate nodes between a start node and a final verification.
-/
namespace Psop.Compiler

open Json

/-! ### Identifiers -/

/-- Every maximal run of other characters becomes one `mark`. -/
def subRuns (keep : Char → Bool) (mark : Char) : Bool → List Char → List Char
  | _, [] => []
  | inRun, c :: cs =>
    if keep c then c :: subRuns keep mark false cs
    else if inRun then subRuns keep mark true cs else mark :: subRuns keep mark true cs

def dropMarks (mark : Char) : List Char → List Char
  | [] => []
  | c :: cs => if c = mark then dropMarks mark cs else c :: cs

/-- `value.strip(mark)` -/
def stripMarks (mark : Char) (cs : List Char) : List Char :=
  (dropMarks mark (dropMarks mark cs).reverse).reverse

def isAlphanumeric (c : Char) : Bool :=
  (48 ≤ c.toNat && c.toNat ≤ 57) || (65 ≤ c.toNat && c.toNat ≤ 90) || (97 ≤ c.toNat && c.toNat ≤ 122)

/-- `re.sub(r"[^…]+", mark, value).strip(mark)` -/
def slug (keep : Char → Bool) (mark : Char) (value : String) : String :=
  String.ofList (stripMarks mark (subRuns keep mark false value.toList))

/-- The candidates of the loop that looks for an unused name, from a suffix on. -/
def firstFree (base : String) (used : List String) : Nat → Nat → String → String
  | 0, _, candidate => candidate
  | tries + 1, suffix, candidate =>
    if candidate ∈ used then
      firstFree base used tries (suffix + 1) (base ++ "_" ++ toString suffix)
    else candidate

/-- The name itself, or with the first suffix that makes it new. Among one more candidate than there
are names in use one is new. -/
def freshName (base : String) (used : List String) : String :=
  firstFree base used used.length 2 base

/-- `_non_empty_text` -/
def nonEmptyText (value : Json) (default : String) : String :=
  match value with
  | str s => if Text.strip s = "" then default else Text.strip s
  | _ => default

/-- `_safe_step_id` -/
def safeStepId (value : String) (index : Nat) (used : List String) : String :=
  let normalized := slug (fun c => isAlphanumeric c || c == '_') '_' (Text.lower (Text.strip value))
  let normalized := if normalized = "" then "workflow_" ++ toString index else normalized
  freshName (if normalized ∈ scaffoldNodeIds then normalized ++ "_stage" else normalized) used

/-- `_safe_evidence_key` -/
def safeEvidenceKey (value : Json) (fallback : String) (used : List String) : String :=
  let normalized := Text.lower (slug (fun c => isAlphanumeric c || c == '_' || c == '-') '_'
    (Text.strip value.strOr))
  freshName (if normalized = "" then fallback else normalized) used

/-! ### Evidence -/

structure EvidenceOption where
  optionKey : String
  kind : String
  eventKind : String
  proofMode : String
deriving Repr, DecidableEq

structure EvidenceRequirement where
  requirementKey : String
  description : String
  required : Bool
  options : List EvidenceOption
deriving Repr, DecidableEq

/-- `_event_kind_for_evidence` -/
def eventKindForEvidence (kind : String) : String :=
  if kind ∈ ["image", "audio", "video"] then "terminal.multimodal.input.v1"
  else "terminal.text.input.v1"

/-- `_proof_mode_for_evidence` -/
def proofModeForEvidence (kind : String) : String :=
  if kind ∈ ["image", "video"] then "visual" else "attestation"

def normalizeOption (used : List String) (index : Nat) (raw : Json) : EvidenceOption :=
  let kind := Text.lower (nonEmptyText (raw.field "kind") "text")
  { optionKey := safeEvidenceKey (((raw.field "option_key").or (raw.field "id")).or (raw.field "key"))
      (kind ++ "_" ++ toString index) used
    kind := kind
    eventKind := nonEmptyText (raw.field "event_kind") (eventKindForEvidence kind)
    proofMode := Text.lower (nonEmptyText (raw.field "proof_mode") (proofModeForEvidence kind)) }

/-- The options of a requirement; what is no object is passed over. -/
def normalizeOptions : List String → Nat → List Json → List EvidenceOption
  | _, _, [] => []
  | used, index, raw :: rest =>
    if raw.isObj then
      let option := normalizeOption used index raw
      option :: normalizeOptions (used ++ [option.optionKey]) (index + 1) rest
    else normalizeOptions used (index + 1) rest

/-- A requirement may be a plain text. -/
def requirementItem : Json → Json
  | str description => obj [("description", str description), ("kind", str "text")]
  | other => other

/-- The options a requirement declares: itself if it declares none. -/
def rawOptions (item : Json) : List Json :=
  match item.field "evidence_options" with
  | arr options => options
  | _ => [item]

def isFalse : Json → Bool
  | .bool b => !b
  | _ => false

def normalizeRequirement (used : List String) (index : Nat) (item : Json) : EvidenceRequirement :=
  { requirementKey := safeEvidenceKey
      (((item.field "requirement_key").or (item.field "id")).or (item.field "key"))
      ("evidence_" ++ toString index) used
    description := nonEmptyText ((item.field "description").or (item.field "title"))
      ("步骤证据要求 " ++ toString index)
    required := !isFalse (item.field "required")
    options := normalizeOptions [] 1 (rawOptions item) }

/-- The requirements of a step; one without options is passed over, but its key stays in use. -/
def normalizeRequirements : List String → Nat → List Json → List EvidenceRequirement
  | _, _, [] => []
  | used, index, raw :: rest =>
    let item := requirementItem raw
    if item.isObj then
      let requirement := normalizeRequirement used index item
      let later := normalizeRequirements (used ++ [requirement.requirementKey]) (index + 1) rest
      if requirement.options.isEmpty then later else requirement :: later
    else normalizeRequirements used (index + 1) rest

/-- The requirement of a step that declares none. -/
def siteState : EvidenceRequirement :=
  ⟨"site_state", "确认当前步骤的现场状态。", true,
    [⟨"image_1", "image", "terminal.image.input.v1", "visual"⟩,
     ⟨"text_2", "text", "terminal.text.input.v1", "attestation"⟩]⟩

/-- The requirements a step declares, `none` where a list of several is refused. -/
def rawRequirements : Json → Option (List Json)
  | obj fs => some (firstOf ["requirements"] fs).items
  | arr raw => if 1 < raw.length then none else some raw
  | _ => some []

def ambiguousEvidence : String :=
  "expected_evidence 的多项 legacy list 语义不明确；" ++
    "请使用 v2 requirements，并把替代提交方式放入同一 evidence_options。"

/-- `_normalize_expected_evidence` -/
def normalizeExpectedEvidence (raw : Json) : Except String (List EvidenceRequirement) :=
  match rawRequirements raw with
  | none => .error ambiguousEvidence
  | some raw =>
    let requirements := normalizeRequirements [] 1 raw
    .ok (if requirements.isEmpty then [siteState] else requirements)

/-! ### Reference images -/

/-- `_bounded_int` -/
def boundedInt (value : Json) (default minimum maximum : Int) : Int :=
  max minimum (min maximum (value.toInt?.getD default))

/-- `value.replace(old, new)` for single characters. -/
def replaceChar (old new : Char) (value : String) : String :=
  String.ofList (value.toList.map fun c => if c = old then new else c)

/-- `value.rsplit(".", 1)[0]` -/
def withoutExtension (value : String) : String :=
  match (Text.splitOn '.' value).reverse with
  | _ :: part :: parts => Text.join "." (part :: parts).reverse
  | _ => value

/-- `_title_from_reference_image_item` -/
def titleFromReferenceImageItem (item : Json) (index : Nat) : String :=
  let path := (item.field "reference_path").strOr
  let stem := Text.strip (replaceChar '_' ' ' (replaceChar '-' ' '
    (withoutExtension ((Text.splitOn '/' path).getLastD ""))))
  if stem = "" then "参考图 " ++ toString index else stem

/-- `_safe_reference_slug` -/
def safeReferenceSlug (value : String) (index : Nat) : String :=
  let slug := slug isAlphanumeric '-' (Text.lower (Text.strip value))
  if slug = "" then "image-" ++ toString index else slug

def rawReferenceImages : Json → List Json
  | obj fs => fs.filterMap fun entry => match entry.2 with
    | obj value => some (obj (setKey "reference_image_ref"
        ((firstOf ["reference_image_ref"] value).or (str entry.1)) value))
    | _ => none
  | arr raw => raw
  | _ => []

/-- The reference of an image, with its index where it was used before. -/
def referenceImageRef (stepId : String) (used : List String) (index : Nat) (title : String)
    (item : Json) : String :=
  let given := Text.strip ((item.field "reference_image_ref").or (item.field "ref")).strOr
  let ref := if given = "" then "skill-reference://steps/" ++ stepId ++ "/" ++ safeReferenceSlug title index
    else given
  if ref ∈ used then ref ++ "-" ++ toString index else ref

/-- `_normalize_reference_images` -/
def normalizeReferenceImages (stepId : String) : List String → Nat → List Json → List Json
  | _, _, [] => []
  | used, index, item :: rest =>
    if item.isObj then
      let title := nonEmptyText (item.field "title") (titleFromReferenceImageItem item index)
      let ref := referenceImageRef stepId used index title item
      obj [("reference_image_ref", str ref), ("title", str title),
        ("caption", str (item.field "caption").strOr),
        ("artifact_object_id", str (item.field "artifact_object_id").strOr),
        ("mime_type", str (item.field "mime_type").strOr),
        ("source_ref", str (item.field "source_ref").strOr),
        ("display_order", num (boundedInt (item.field "display_order") index 0 1000))] ::
      normalizeReferenceImages stepId (used ++ [ref]) (index + 1) rest
    else normalizeReferenceImages stepId used (index + 1) rest

/-! ### Steps -/

structure ScaffoldStep where
  id : String
  title : String
  goal : String
  sourceEvidence : String
  expectedEvidence : List EvidenceRequirement
  sourceFile : String
  /-- `preconditions`, `completion_criteria`, `stop_conditions` and `recovery_path`, if given. -/
  optional : Fields
  referenceImages : List Json
deriving Repr

def optionalKeys : List String :=
  ["preconditions", "completion_criteria", "stop_conditions", "recovery_path"]

def normalizeStep (used : List String) (index : Nat) (raw : Json) : Except String ScaffoldStep :=
  if !raw.isObj then .error ("workflow_steps[" ++ toString (index - 1) ++ "] 必须是对象。")
  else
    let title := nonEmptyText ((raw.field "title").or (raw.field "name")) ("步骤 " ++ toString index)
    let id := safeStepId (((raw.field "id").or (raw.field "step_id")).or (str title)).toStr index used
    (normalizeExpectedEvidence (raw.field "expected_evidence")).map fun expectedEvidence =>
      { id := id
        title := title
        goal := nonEmptyText (raw.field "goal") ("完成「" ++ title ++ "」并收集可验证现场证据。")
        sourceEvidence := nonEmptyText (((raw.field "source_evidence").or (raw.field "source_excerpt")).or
          (raw.field "source_summary"))
          ("SKILL.md 中描述了「" ++ title ++ "」阶段的用户动作、证据和完成标准。")
        expectedEvidence := expectedEvidence
        sourceFile := nonEmptyText (raw.field "source_file") "SKILL.md"
        optional := optionalKeys.filterMap fun key =>
          if isBlank (raw.field key) then none else some (key, raw.field key)
        referenceImages := normalizeReferenceImages id [] 1
          (rawReferenceImages (raw.field "reference_images")) }

/-- `_normalize_scaffold_steps`, with the ids used so far. -/
def normalizeSteps : List String → Nat → List Json → Except String (List ScaffoldStep)
  | _, _, [] => .ok []
  | used, index, raw :: rest => do
    let step ← normalizeStep used index raw
    let later ← normalizeSteps (used ++ [step.id]) (index + 1) rest
    .ok (step :: later)

def normalizeScaffoldSteps (raw : List Json) : Except String (List ScaffoldStep) :=
  normalizeSteps [] 1 raw

/-! ### The artifact -/

def EvidenceOption.toJson (option : EvidenceOption) : Json :=
  obj [("option_key", str option.optionKey), ("kind", str option.kind),
    ("event_kind", str option.eventKind), ("proof_mode", str option.proofMode)]

def EvidenceRequirement.toJson (requirement : EvidenceRequirement) : Json :=
  obj [("requirement_key", str requirement.requirementKey),
    ("description", str requirement.description), ("required", .bool requirement.required),
    ("evidence_options", arr (requirement.options.map EvidenceOption.toJson))]

namespace ScaffoldStep

/-- The evidence contract of the step. -/
def evidenceJson (step : ScaffoldStep) : Json :=
  obj [("requirements", arr (step.expectedEvidence.map EvidenceRequirement.toJson))]

/-- The step as the runtime contract carries it. -/
def contractJson (step : ScaffoldStep) : Json :=
  obj ([("id", str step.id), ("title", str step.title), ("goal", str step.goal),
    ("source_evidence", str step.sourceEvidence)] ++ step.optional ++
    if step.referenceImages.isEmpty then [] else [("reference_images", arr step.referenceImages)])

/-- The kinds of input the options of the step ask for, each once. -/
def inputKinds (step : ScaffoldStep) : List (String × String) :=
  let kinds := step.expectedEvidence.flatMap fun requirement => requirement.options.map fun option =>
    let kind := if option.kind = "" then "text" else option.kind
    (kind, if option.eventKind = "" then eventKindForEvidence kind else option.eventKind)
  kinds.foldl (fun seen kind => if kind ∈ seen then seen else seen ++ [kind]) []

/-- `_expected_inputs_for_evidence_contract` -/
def expectedInputs (step : ScaffoldStep) : Json :=
  arr (step.inputKinds.map fun kind => obj [("kind", str kind.1), ("event_kind", str kind.2)])

def checkpointId (step : ScaffoldStep) : String := step.id ++ "_evidence"

def checkpointJson (step : ScaffoldStep) : Json :=
  obj [("checkpoint_id", str step.checkpointId), ("workflow_step_id", str step.id),
    ("expected_inputs", step.expectedInputs)]

end ScaffoldStep

def setValue (path value : String) : Json :=
  obj [("op", str "set"), ("path", str path), ("value", str value)]

def setFrom (path source : String) : Json :=
  obj [("op", str "set"), ("path", str path), ("from", str source)]

def phaseGuard (phase : String) : Json := obj [("phase_is", str phase)]

def namedActor (name : String) : Json := obj [("name", str name)]

def priorityPolicy (priority : Int) : Json := obj [("priority", num priority)]

def keepsObservation (nodeId : String) : Json := setFrom ("observations." ++ nodeId) "observation"

/-- The line every template ends with; the braces are written by their code points. -/
def tokenLine : String :=
  let braces := fun n => String.ofList [Char.ofNat n, Char.ofNat n]
  "当前 Token：" ++ braces 123 ++ "token" ++ braces 125

/-- `_start_node` -/
def startNode (firstStepId : String) : Json :=
  obj [("id", str "start"), ("kind", str "start"), ("guard", phaseGuard "start"),
    ("actor", namedActor "runtime.start"),
    ("merge", arr [setFrom "observations.start" "observation",
      setValue "phase" (instructId firstStepId)]),
    ("policy", priorityPolicy 10)]

def turnKind (firstStep : Bool) : String :=
  if firstStep then "first_step_instruction" else "step_instruction"

def instructTemplate (step : ScaffoldStep) (firstStep : Bool) : String :=
  "回合类型：" ++ turnKind firstStep ++ "\n当前阶段：" ++ step.title ++ "\n阶段目标：" ++ step.goal ++
    "\nsource evidence：" ++ step.sourceEvidence ++ "\n期望证据：" ++ step.evidenceJson.dumps ++ "\n" ++
    tokenLine

/-- `_instruct_node` -/
def instructNode (step : ScaffoldStep) (firstStep : Bool) : Json :=
  let nodeId := instructId step.id
  obj [("id", str nodeId), ("kind", str "llm"), ("guard", phaseGuard nodeId),
    ("actor", namedActor "agent.llm"),
    ("interaction", obj [("runner_turn_kind", str (turnKind firstStep)),
      ("output_to_terminal", .bool true), ("wait_after_output", .bool true),
      ("checkpoint_id", str step.checkpointId), ("workflow_step_id", str step.id),
      ("wait_reason", str ("等待用户提交「" ++ step.title ++ "」的现场证据。")),
      ("expected_inputs", step.expectedInputs), ("resume_phase", str (evaluateId step.id))]),
    ("projection", obj [("system_template", str ("处理 PSOP Runtime 当前阶段指令节点：" ++ step.title ++
        "，并提交结构化 observation。")), ("user_template", str (instructTemplate step firstStep))]),
    ("merge", arr [keepsObservation nodeId]), ("policy", priorityPolicy 20)]

def evaluateTemplate (step : ScaffoldStep) (nextPhase : String) : String :=
  "评估阶段：" ++ step.title ++ "\n完成目标：" ++ step.goal ++ "\n期望证据：" ++ step.evidenceJson.dumps ++
    "\n如果证据充分且无安全风险，decision 必须是 `proceed`，Runtime 会进入 `" ++ nextPhase ++
    "`；如果证据不足，decision 必须是 `need_more_evidence` 或 `retry`，Runtime 会继续等待 `" ++ step.id ++
    "` 的证据；如果存在不可恢复安全风险，decision 必须是 `abort` 且 terminal_message 说明终止原因。\n" ++
    tokenLine

def evaluateSystemTemplate : String :=
  "你是 PSOP Runtime 证据评估节点。只输出 JSON decision，字段包含 decision、reason、terminal_message；" ++
    "next_phase 是兼容字段，可留空。"

/-- `_evaluate_node` -/
def evaluateNode (step : ScaffoldStep) (nextPhase : String) : Json :=
  let nodeId := evaluateId step.id
  obj [("id", str nodeId), ("kind", str "llm"), ("guard", phaseGuard nodeId),
    ("actor", namedActor "agent.llm"),
    ("interaction", obj [("runner_turn_kind", str "evidence_evaluation"), ("evaluation", .bool true),
      ("transitions", obj [("proceed", str nextPhase), ("complete", str "terminal"),
        ("abort", str "terminal")])]),
    ("projection", obj [("system_template", str evaluateSystemTemplate),
      ("user_template", str (evaluateTemplate step nextPhase))]),
    ("merge", arr [keepsObservation nodeId]), ("policy", priorityPolicy 30)]

def finalSystemTemplate : String :=
  "你是 PSOP Runtime 最终验证节点 final_verify。只输出 JSON object，" ++
    "字段包含 decision、reason、terminal_message；next_phase 是兼容字段，可留空。"

def finalTemplate : String :=
  "根据 runtime_contract.completion_criteria、所有 workflow step 观察结果和当前 Token 做最终验证。" ++
    "通过时 decision=`complete`，terminal_message 给出完成结论；未通过时说明缺口并回到相应等待点。\n" ++
    tokenLine

/-- `_final_verify_node` -/
def finalVerifyNode : Json :=
  obj [("id", str "final_verify"), ("kind", str "llm"), ("guard", phaseGuard "final_verify"),
    ("actor", namedActor "agent.llm"),
    ("interaction", obj [("runner_turn_kind", str "final_verification"), ("evaluation", .bool true),
      ("transitions", obj [("proceed", str "terminal"), ("complete", str "terminal"),
        ("abort", str "terminal")])]),
    ("projection", obj [("system_template", str finalSystemTemplate),
      ("user_template", str finalTemplate)]),
    ("merge", arr [setFrom "observations.final_verify" "observation",
      setFrom "outputs.final_response" "observation.terminal_message"]),
    ("policy", priorityPolicy 40)]

/-- `_terminal_node` -/
def terminalNode : Json :=
  obj [("id", str "terminal"), ("kind", str "terminal"), ("guard", phaseGuard "terminal"),
    ("actor", namedActor "runtime.terminal"),
    ("merge", arr [setFrom "outputs.final_response" "observation.final_response",
      setValue "status" "success", setValue "phase" "completed"]),
    ("policy", priorityPolicy 50)]

/-- Where the evaluation of a step goes on, given the steps after it. -/
def nextPhase : List ScaffoldStep → String
  | [] => "final_verify"
  | next :: _ => instructId next.id

/-- The two nodes of every step. -/
def stepNodes : Bool → List ScaffoldStep → List Json
  | _, [] => []
  | firstStep, step :: rest =>
    instructNode step firstStep :: evaluateNode step (nextPhase rest) :: stepNodes false rest

def edge (source target : String) : Json := obj [("from", str source), ("to", str target)]

def stepEdges : List ScaffoldStep → List Json
  | [] => []
  | step :: rest => edge (instructId step.id) (evaluateId step.id) ::
      edge (evaluateId step.id) (nextPhase rest) :: stepEdges rest

/-- The arguments of the builder besides the steps. -/
structure ScaffoldInput where
  skill : Json
  executionGoal : String
  applicability : Fields
  safetyConstraints : List String
  completionCriteria : List String
  recoveryPaths : List Json
  llmRouteKey : String
deriving Repr

def scaffoldNodes (firstStepId : String) (steps : List ScaffoldStep) : List Json :=
  startNode firstStepId :: (stepNodes true steps ++ [finalVerifyNode, terminalNode])

def scaffoldEdges (firstStepId : String) (steps : List ScaffoldStep) : List Json :=
  edge "start" (instructId firstStepId) :: (stepEdges steps ++ [edge "final_verify" "terminal"])

def skillInstruction : String :=
  "严格遵循 frozen SKILL.md 中的现实世界协作流程；每次只推进当前阶段，等待用户证据后再判断是否进入下一阶段。"

def runtimeContract (input : ScaffoldInput) (steps : List ScaffoldStep) : Json :=
  obj [("llm_route_key", str input.llmRouteKey),
    ("evidence_contract_version", str "psop-evidence/v2"),
    ("skill_instruction", str skillInstruction),
    ("execution_goal", str input.executionGoal),
    ("applicability", obj input.applicability),
    ("workflow_steps", arr (steps.map ScaffoldStep.contractJson)),
    ("expected_evidence", obj (steps.map fun step => (step.id, step.evidenceJson))),
    ("safety_constraints", arr (input.safetyConstraints.map str)),
    ("wait_checkpoints", arr (steps.map ScaffoldStep.checkpointJson)),
    ("completion_criteria", arr (input.completionCriteria.map str)),
    ("recovery_paths", arr input.recoveryPaths)]

def scaffoldFields (input : ScaffoldInput) (firstStepId : String) (steps : List ScaffoldStep) : Fields :=
  [("artifact_version", str artifactVersion),
    ("formal_revision", str formalRevision),
    ("skill", input.skill),
    ("schema", obj [("token_fields", arr ((Text.sortedSet defaultTokenFields).map str)),
      ("input_name", str "user_input"), ("output_name", str "final_response")]),
    ("nodes", arr (scaffoldNodes firstStepId steps)),
    ("init", obj [("entry_node", str "start")]),
    ("halt", obj [("success", obj [("field_equals", obj [("path", str "status"),
      ("value", str "success")])])]),
    ("policies", obj [("selection", str "priority_then_order"),
      ("max_steps", num (max 10 (2 * steps.length + 6)))]),
    ("dependency_graph_for_view", arr (scaffoldEdges firstStepId steps)),
    ("runtime_contract", runtimeContract input steps)]

/-- `_scaffold_artifact`: undefined without a first step. -/
def scaffoldArtifact (input : ScaffoldInput) (steps : List ScaffoldStep) : Option Json :=
  steps.head?.map fun first => obj (scaffoldFields input first.id steps)

/-! ### A small artifact to run -/

def brewStep : ScaffoldStep :=
  { id := "brew", title := "Brew", goal := "Brew a cup.", sourceEvidence := "Brew and taste."
    expectedEvidence := [siteState], sourceFile := "SKILL.md", optional := [], referenceImages := [] }

def brewInput : ScaffoldInput :=
  { skill := obj [], executionGoal := "Serve a cup.", applicability := [("applies_when", arr [])]
    safetyConstraints := ["Mind the heat."], completionCriteria := ["A cup is served."]
    recoveryPaths := [str "Brew again."], llmRouteKey := "text" }

/-- `{**node, key: value}` -/
def withField (key : String) (value : Json) (node : Json) : Json := obj (setKey key value node.fields)

/-- The scaffold of the one step with other nodes and one more halt condition. -/
def brewCandidate (nodes : List Json) (halt : Fields) : Json :=
  withField "halt" (obj (("success", obj [("field_equals", obj [("path", str "status"),
      ("value", str "success")])]) :: halt))
    (withField "nodes" (arr nodes) (obj (scaffoldFields brewInput brewStep.id [brewStep])))

end Psop.Compiler
