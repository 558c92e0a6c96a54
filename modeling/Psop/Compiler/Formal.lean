import Psop.Json

/-!
The validator of compiled artifacts.

`validateAndNormalizeArtifact` rewrites the shorthand forms of guards, merges, actors and halt
conditions, collects a diagnostic for everything it objects to, and answers with the artifact if there
is none. Every diagnostic is an error and names the path it is about. It is undefined where the source
raises, on a kind or an operation that cannot be a member of a set.
-/
namespace Psop.Compiler

open Json

def formalRevision : String := "psop-eg-formal/v5"

def artifactVersion : String := "psop-eg-formal-v5/llm-compiler-mvp-v1"

def supportedNodeKinds : List String := ["start", "input", "llm", "tool", "terminal"]

def knownNodeKinds : List String := supportedNodeKinds ++ ["approval", "timer", "skill"]

def supportedActors : List String :=
  ["runtime.start", "runtime.input", "agent.llm", "capability.demo_tool", "runtime.terminal"]

def supportedTools : List String := ["psop.demo.inspect_input"]

def scaffoldNodeIds : List String :=
  ["start", "input", "llm", "tool", "terminal", "final", "finalize", "finish", "end"]

def defaultTokenFields : List String :=
  ["phase", "input_envelope", "observations", "budgets", "outputs", "control", "metadata", "facts",
    "registers", "memory", "trace", "status"]

structure FormalDiagnostic where
  severity : String
  code : String
  message : String
  path : String
  category : String := "compiler"
deriving Repr, DecidableEq

structure FormalValidationResult where
  artifact : Option Json
  diagnostics : List FormalDiagnostic
deriving Repr

/-- `has_errors` -/
def hasErrors (diagnostics : List FormalDiagnostic) : Bool :=
  diagnostics.any fun diagnostic => diagnostic.severity == "error"

/-- `_error` -/
def error (message path : String) : FormalDiagnostic :=
  ⟨"error", "compile.formal_v5.validation_failed", message, path, "compiler"⟩

/-- `_workflow_error` -/
def workflowError (message path : String) : FormalDiagnostic :=
  ⟨"error", "compile.workflow.not_extracted", message, path, "compiler"⟩

def actorError (message path : String) : FormalDiagnostic :=
  ⟨"error", "compile.unsupported_actor", message, path, "compiler"⟩

/-- A diagnostic where the check fails. -/
def require (check : Bool) (diagnostic : FormalDiagnostic) : List FormalDiagnostic :=
  if check then [] else [diagnostic]

/-- `str` of an index within a path. -/
def item (path : String) (index : Nat) : String := path ++ "[" ++ toString index ++ "]"

/-- Whether `value in {…}` raises. -/
def unhashable : Json → Bool
  | arr _ => true
  | obj _ => true
  | _ => false

/-- The value under the first of the keys that is there, `None` without any. -/
def firstOf : List String → Fields → Json
  | [], _ => null
  | key :: keys, fs => (lookup key fs).getD (firstOf keys fs)

/-- A text that is not blank. -/
def isText (j : Json) : Bool :=
  match j with
  | str s => Text.strip s != ""
  | _ => false

/-! ### Normalisation -/

/-- `_normalize_token_path` -/
def normalizeTokenPath (path : String) (target : Bool) : String :=
  let stripped := Text.dropLead "token." path
  if stripped ∈ ["phase", "status"] then stripped
  else if target then
    if stripped ∈ ["user_input", "input", "input_text"] then "observations.input.user_input"
    else if stripped ∈ ["llm_response", "response", "answer"] then "observations.llm.content"
    else if stripped ∈ ["final_response", "final"] then "outputs.final_response"
    else if stripped ∈ ["tool_result", "tool"] then "observations.tool"
    else stripped
  else
    if stripped ∈ ["user_input", "input", "input_text"] then "input_envelope.user_input"
    else if stripped ∈ ["llm_response", "response", "answer"] then "observations.llm.content"
    else if stripped ∈ ["final_response", "final"] then "outputs.final_response"
    else stripped

/-- `_normalize_merge_source_path` -/
def normalizeMergeSourcePath (path : String) : String :=
  let stripped := Text.dropLead "token." path
  if stripped ∈ ["user_input", "input", "input_text"] then "input.user_input"
  else if stripped ∈ ["llm_response", "response", "answer"] then "observation.content"
  else if stripped ∈ ["final_response", "final"] then "observation.final_response"
  else path

/-- The part of `_normalize_guard_shape` for a guard in its own operators, given the entries with their
values normalised and with the items of their values normalised. -/
def normalizeOperators (fs whole each : Fields) : Json :=
  let fs := match lookup "field_exists" fs with
    | some (str path) => setKey "field_exists" (str (normalizeTokenPath path false)) fs
    | _ => fs
  let fs := match lookup "field_equals" fs with
    | some (obj condition) => match lookup "path" condition with
      | some (str path) => setKey "field_equals"
          (obj (setKey "path" (str (normalizeTokenPath path false)) condition)) fs
      | _ => fs
    | _ => fs
  let fs := match lookup "all" fs with
    | some (arr _) => setKey "all" (firstOf ["all"] each) fs
    | _ => fs
  let fs := match lookup "any" fs with
    | some (arr _) => setKey "any" (firstOf ["any"] each) fs
    | _ => fs
  let fs := match lookup "not" fs with
    | some _ => setKey "not" (firstOf ["not"] whole) fs
    | none => fs
  obj fs

/-- A guard written with `op`: `none` where the operators of a plain guard apply. -/
def normalizeOp? (op : String) (fs whole each : Fields) : Option Json :=
  let grouped := fun key =>
    match firstOf ["conditions", "items", "value"] (each ++ [("value", arr [])]) with
    | arr guards => some (obj [(key, arr guards)])
    | _ => some (obj fs)
  if op ∈ ["always", "true"] then some (obj [("always", .bool true)])
  else if op = "phase_is" then
    match firstOf ["value", "phase"] fs with
    | null => some (obj fs)
    | phase => some (obj [("phase_is", str phase.toStr)])
  else if op = "field_exists" then
    match firstOf ["path", "value"] fs with
    | null => some (obj fs)
    | path => some (obj [("field_exists", str (normalizeTokenPath path.toStr false))])
  else if op ∈ ["field_equals", "equals", "eq"] then
    match firstOf ["path", "field"] fs with
    | null => none
    | path => some (obj [("field_equals", obj [("path", str (normalizeTokenPath path.toStr false)),
        ("value", firstOf ["value"] fs)])])
  else if op ∈ ["and", "all"] then grouped "all"
  else if op ∈ ["or", "any"] then grouped "any"
  else if op = "not" then some (obj [("not", firstOf ["condition", "value"] whole)])
  else none

mutual
/-- `_normalize_guard_shape` -/
def normalizeGuardShape : Json → Json
  | obj fs =>
    let whole := wholeShapes fs
    let each := itemShapes fs
    match (lookup "op" fs).bind fun op => normalizeOp? (Text.lower op.strOr) fs whole each with
    | some guard => guard
    | none => normalizeOperators fs whole each
  | guard => guard
termination_by structural x => x
/-- The entries of a guard, their values normalised. -/
def wholeShapes : List (String × Json) → List (String × Json)
  | [] => []
  | entry :: rest => wholeShape entry :: wholeShapes rest
termination_by structural x => x
def wholeShape : String × Json → String × Json
  | (key, value) => (key, normalizeGuardShape value)
termination_by structural x => x
/-- The entries of a guard, the items of their values normalised. -/
def itemShapes : List (String × Json) → List (String × Json)
  | [] => []
  | entry :: rest => itemShape entry :: itemShapes rest
termination_by structural x => x
def itemShape : String × Json → String × Json
  | (key, value) => (key, shapesOf value)
termination_by structural x => x
def shapesOf : Json → Json
  | arr guards => arr (guardShapes guards)
  | value => value
termination_by structural x => x
def guardShapes : List Json → List Json
  | [] => []
  | guard :: rest => normalizeGuardShape guard :: guardShapes rest
termination_by structural x => x
end

/-- One operation of `_normalize_merge_shape` -/
def normalizeMergeOperation : Json → Option Json
  | obj fs =>
    if unhashable (firstOf ["op"] fs) then none
    else
      let fs := match lookup "op" fs with
        | some (str op) => if op = "assign" ∨ op = "write" then setKey "op" (str "set") fs else fs
        | _ => fs
      let fs := match lookup "path" fs with
        | some (str path) => setKey "path" (str (normalizeTokenPath path true)) fs
        | _ => fs
      let fs := match lookup "from" fs with
        | some (str path) => setKey "from" (str (normalizeMergeSourcePath path)) fs
        | _ => fs
      some (obj fs)
  | operation => some operation

/-- The actor a node of the kind gets by default. -/
def defaultActor? (kind : String) : Option String :=
  (["runtime.start", "runtime.input", "agent.llm", "capability.demo_tool", "runtime.terminal"].zip
    supportedNodeKinds).findSome? fun entry => if entry.2 = kind then some entry.1 else none

/-- `_normalize_merge_shape`, on the entries of a node. -/
def normalizeMerge (fs : Fields) : Option Fields :=
  match lookup "merge" fs with
  | some (arr operations) => (operations.mapM normalizeMergeOperation).map fun operations =>
      setKey "merge" (arr operations) fs
  | _ => some fs

/-- A node without an actor gets the one of its kind. -/
def addActor (fs : Fields) : Fields :=
  match lookup "actor" fs, lookup "kind" fs with
  | none, some (str kind) => match defaultActor? kind with
    | some actor => setKey "actor" (obj [("name", str actor)]) fs
    | none => fs
  | _, _ => fs

/-- The normalised guard, merge and actor of a node. -/
def normalizeNode : Json → Option Json
  | obj fs =>
    (normalizeMerge (setKey "guard" (normalizeGuardShape (firstOf ["guard"] fs)) fs)).map fun fs =>
      obj (addActor fs)
  | node => some node

def normalizeNodes (artifact : Fields) : Option Fields :=
  match lookup "nodes" artifact with
  | some (arr nodes) => (nodes.mapM normalizeNode).map fun nodes =>
      setKey "nodes" (arr nodes) artifact
  | _ => some artifact

/-- The normalised halt conditions. -/
def normalizeHalt (halt : Fields) : Json :=
  if (lookup "success" halt).isNone && (lookup "failure" halt).isNone
  then obj [("success", normalizeGuardShape (obj halt))]
  else obj (["success", "failure", "aborted"].foldl (fun fs key => match lookup key fs with
    | some condition => setKey key (normalizeGuardShape condition) fs
    | none => fs) halt)

/-- `_normalize_candidate` -/
def normalizeCandidate (artifact : Fields) : Option Fields :=
  (normalizeNodes artifact).map fun artifact => match lookup "halt" artifact with
    | some (obj halt) => setKey "halt" (normalizeHalt halt) artifact
    | _ => artifact

/-! ### Names -/

/-- `_token_fields` -/
def tokenFields (schema : Json) : List String :=
  defaultTokenFields ++ (schema.field "token_fields").items.filterMap fun field =>
    field.str?.bind fun name => if name = "" then none else some name

/-- `_actor_name` -/
def actorName : Json → String
  | str actor => actor
  | obj actor =>
    match lookup "name" actor with
    | some (str name) => name
    | _ => match lookup "type" actor with
      | some (str "llm") => "agent.llm"
      | some (str "tool") => "capability.demo_tool"
      | some (str "runtime") => match lookup "operation" actor with
        | some (str operation) => "runtime." ++ operation
        | _ => ""
      | _ => ""
  | _ => ""

/-- `_tool_name` -/
def toolName (actor : Json) : String :=
  match (actor.field "tool_name").or (actor.field "tool") with
  | str tool => tool
  | _ => ""

/-! ### Guards, merges and transitions -/

/-- `_validate_token_path` -/
def validateTokenPath (fields : List String) (value path : String) : List FormalDiagnostic :=
  let root := (Text.splitOn '.' value).headD ""
  require (root ∈ fields)
    (error ("字段路径 `" ++ value ++ "` 引用了未知 Token 顶层字段 `" ++ root ++ "`。") path)

/-- `_validate_path_value` -/
def validatePathValue (fields : List String) (value : Json) (path : String) : List FormalDiagnostic :=
  match value with
  | str value => validateTokenPath fields value path
  | _ => [error "字段路径必须是字符串。" path]

def guardOperators : List String :=
  ["always", "phase_is", "field_exists", "field_equals", "all", "any", "not"]

def unknownOperators (path : String) (fs : Fields) : List FormalDiagnostic :=
  (Text.sortedSet ((fs.map Prod.fst).filter fun key => !(key ∈ guardOperators))).map fun key =>
    error ("guard 使用了不支持的操作 `" ++ key ++ "`。") (path ++ "." ++ key)

def validateFieldEquals (fields : List String) (condition : Json) (path : String) :
    List FormalDiagnostic :=
  match condition.field "path" with
  | str value => validateTokenPath fields value (path ++ ".path")
  | _ => [error "field_equals 必须包含字符串 path。" path]

mutual
/-- `_validate_guard` -/
def validateGuard (fields : List String) (path : String) : Json → List FormalDiagnostic
  | .bool _ => []
  | obj fs =>
    let entries := guardEntryDiagnostics fields path fs
    unknownOperators path fs ++ guardOperators.flatMap fun key => (entries.lookup key).getD []
  | _ => [error "guard 必须是对象或布尔值。" path]
termination_by structural x => x
/-- The diagnostics of each entry. -/
def guardEntryDiagnostics (fields : List String) (path : String) :
    List (String × Json) → List (String × List FormalDiagnostic)
  | [] => []
  | entry :: rest => validateEntry fields path entry :: guardEntryDiagnostics fields path rest
termination_by structural x => x
def validateEntry (fields : List String) (path : String) :
    String × Json → String × List FormalDiagnostic
  | (key, value) => (key,
      if key = "phase_is" then
        require value.str?.isSome (error "phase_is 必须是字符串。" (path ++ ".phase_is"))
      else if key = "field_exists" then validatePathValue fields value (path ++ ".field_exists")
      else if key = "field_equals" then validateFieldEquals fields value (path ++ ".field_equals")
      else if key = "all" ∨ key = "any" then validateGuards fields key path value
      else if key = "not" then validateGuard fields (path ++ ".not") value
      else [])
termination_by structural x => x
def validateGuards (fields : List String) (key path : String) : Json → List FormalDiagnostic
  | arr guards => validateItems fields (path ++ "." ++ key) 0 guards
  | _ => [error (key ++ " 必须是数组。") (path ++ "." ++ key)]
termination_by structural x => x
def validateItems (fields : List String) (path : String) (index : Nat) :
    List Json → List FormalDiagnostic
  | [] => []
  | guard :: rest => validateGuard fields (item path index) guard ++
      validateItems fields path (index + 1) rest
termination_by structural x => x
end

/-- One operation of `_validate_merge` -/
def validateMergeOperation (fields : List String) (path : String) (operation : Json) :
    List FormalDiagnostic :=
  match operation with
  | obj fs =>
    require ((operation.field "op").pyEq (str "set")) (error "MVP merge 仅支持 op=set。" (path ++ ".op")) ++
    (match operation.field "path" with
      | str target => validateTokenPath fields target (path ++ ".path")
      | _ => [error "merge operation 必须包含字符串 path。" (path ++ ".path")]) ++
    require ((lookup "value" fs).isSome != (lookup "from" fs).isSome)
      (error "merge operation 必须且只能包含 value 或 from。" path)
  | _ => [error "merge operation 必须是对象。" path]

/-- Every element of a list is checked under its index. -/
def eachAt {α : Type} (check : String → α → List FormalDiagnostic) (path : String) :
    Nat → List α → List FormalDiagnostic
  | _, [] => []
  | index, x :: rest => check (item path index) x ++ eachAt check path (index + 1) rest

/-- `_validate_merge` -/
def validateMerge (fields : List String) (merge : List Json) (path : String) : List FormalDiagnostic :=
  eachAt (validateMergeOperation fields) path 0 merge

/-- The node a transition names, `none` where it is neither a text nor an object. -/
def transitionNode? : Json → Option String
  | str target => some target
  | obj fs => some ((((firstOf ["phase"] fs).or (firstOf ["next_phase"] fs)).or
      (firstOf ["to"] fs)).str?.getD "")
  | _ => none

def validateTransition (nodeIds : List String) (path : String) (transition : String × Json) :
    List FormalDiagnostic :=
  let path := path ++ "." ++ transition.1
  match transitionNode? transition.2 with
  | none => [error "transition target 必须是字符串或对象。" path]
  | some target =>
    if target = "" then [error "transition target 必须是非空节点 ID。" path]
    else require (target ∈ nodeIds) (error ("transition target `" ++ target ++ "` 不存在。") path)

/-- `_validate_node_transitions`, for one node. -/
def validateTransitions (nodeIds : List String) (path : String) (node : Json) : List FormalDiagnostic :=
  match (node.field "interaction").field? "transitions" with
  | none => []
  | some (obj transitions) =>
    transitions.flatMap (validateTransition nodeIds (path ++ ".interaction.transitions"))
  | some _ => [error "interaction.transitions 必须是对象。" (path ++ ".interaction.transitions")]

/-! ### Nodes -/

/-- The id of a node, where it is a text. -/
def nodeId? (node : Json) : Option String :=
  (node.field "id").str?.bind fun id => if id = "" then none else some id

def validateNodeId (seen : List String) (path : String) (node : Json) : List FormalDiagnostic :=
  match nodeId? node with
  | none => [error "node.id 必须是非空字符串。" (path ++ ".id")]
  | some id => require (!(id ∈ seen)) (error ("node.id `" ++ id ++ "` 重复。") (path ++ ".id"))

def validateKind (path : String) (kind : Json) : List FormalDiagnostic :=
  match kind.str?.bind fun kind => if kind ∈ knownNodeKinds then some kind else none with
  | none => [error ("node.kind `" ++ kind.toStr ++ "` 不在 formal-v5 节点类型集合中。") (path ++ ".kind")]
  | some kind => require (kind ∈ supportedNodeKinds)
      (actorError ("MVP Runtime 暂不支持 `" ++ kind ++ "` 节点。") (path ++ ".kind"))

def validateActor (path : String) (actor : Json) : List FormalDiagnostic :=
  let name := actorName actor
  let tool := toolName actor
  require (name ∈ supportedActors) (actorError ("MVP Runtime 不支持 actor `" ++
    (if name = "" then "<missing>" else name) ++ "`。") (path ++ ".actor")) ++
  require (name != "capability.demo_tool" || tool == "" || tool ∈ supportedTools)
    (actorError ("MVP Runtime 不支持 tool `" ++ tool ++ "`。") (path ++ ".actor.tool_name"))

def validateNode (fields seen : List String) (path : String) (node : Json) : List FormalDiagnostic :=
  if !node.isObj then [error "node 必须是对象。" path]
  else
    validateNodeId seen path node ++ validateKind path (node.field "kind") ++
    validateActor path (node.field "actor") ++
    (match node.field "guard" with
      | null => [error "node.guard 必须存在。" (path ++ ".guard")]
      | guard => validateGuard fields (path ++ ".guard") guard) ++
    (match node.field "merge" with
      | arr merge => validateMerge fields merge (path ++ ".merge")
      | _ => [error "node.merge 必须是数组。" (path ++ ".merge")])

/-- The loop over the nodes, with the ids seen so far. -/
def validateNodes (fields : List String) : List String → Nat → List Json → List FormalDiagnostic
  | _, _, [] => []
  | seen, index, node :: rest => validateNode fields seen (item "nodes" index) node ++
      validateNodes fields (seen ++ (nodeId? node).toList) (index + 1) rest

def nodeIds (nodes : List Json) : List String := nodes.filterMap nodeId?

def hasKind (kind : String) (nodes : List Json) : Bool :=
  nodes.any fun node => (node.field "kind").pyEq (str kind)

/-! ### The workflow contract -/

def requiredContractFields : List String :=
  ["execution_goal", "applicability", "workflow_steps", "expected_evidence", "safety_constraints",
    "wait_checkpoints", "completion_criteria", "recovery_paths"]

/-- `value in (None, "", [], {})` -/
def isBlank : Json → Bool
  | null => true
  | str s => s == ""
  | arr xs => xs.isEmpty
  | obj fs => fs.isEmpty
  | _ => false

def instructId (stepId : String) : String := "instruct_" ++ stepId

def evaluateId (stepId : String) : String := "evaluate_" ++ stepId

/-- The checks of one workflow step with an id, given the ids seen before it. -/
def validateStep (nodeIds seen : List String) (path stepId : String) (step : Json) :
    List FormalDiagnostic :=
  require (!(stepId ∈ seen)) (workflowError ("workflow step.id `" ++ stepId ++ "` 重复。") (path ++ ".id")) ++
  require (!(stepId ∈ scaffoldNodeIds)) (workflowError ("workflow step.id `" ++ stepId ++
    "` 是通用模板节点名，必须改为来自 Skill 工作流的语义化步骤 ID。") (path ++ ".id")) ++
  require (nodeIds.isEmpty || instructId stepId ∈ nodeIds) (workflowError ("workflow step `" ++ stepId ++
    "` 缺少指令节点 `" ++ instructId stepId ++ "`。") (path ++ ".id")) ++
  require (nodeIds.isEmpty || evaluateId stepId ∈ nodeIds) (workflowError ("workflow step `" ++ stepId ++
    "` 缺少证据评估节点 `" ++ evaluateId stepId ++ "`。") (path ++ ".id")) ++
  require (isText (step.field "title"))
    (workflowError "workflow step.title 必须描述该业务步骤。" (path ++ ".title")) ++
  require (isText (step.field "goal"))
    (workflowError "workflow step.goal 必须说明该步骤在 Skill 工作流中的目标。" (path ++ ".goal")) ++
  require (isText (step.field "source_evidence")) (workflowError
    "workflow step.source_evidence 必须引用 SKILL.md 或 README.md 中支撑该步骤的内容。"
    (path ++ ".source_evidence"))

def stepId? (step : Json) : Option String :=
  (step.field "id").str?.bind fun id => if id = "" then none else some id

/-- The loop over the workflow steps, with the ids seen so far. -/
def validateSteps (nodeIds : List String) : List String → Nat → List Json → List FormalDiagnostic
  | _, _, [] => []
  | seen, index, step :: rest =>
    let path := item "runtime_contract.workflow_steps" index
    (match step.isObj, stepId? step with
      | false, _ => [workflowError "workflow step 必须是对象。" path]
      | true, none => [workflowError "workflow step.id 必须是非空字符串。" (path ++ ".id")]
      | true, some stepId => validateStep nodeIds seen path stepId step) ++
    validateSteps nodeIds (seen ++ (stepId? step).toList) (index + 1) rest

def stepIds (steps : List Json) : List String := steps.filterMap stepId?

def validateCheckpoints (stepIds : List String) (checkpoints : Json) : List FormalDiagnostic :=
  match checkpoints with
  | arr checkpoints =>
    let declared := checkpoints.filterMap fun checkpoint => (checkpoint.field "workflow_step_id").str?
    (Text.sortedSet (stepIds.filter fun id => !(id ∈ declared))).map fun id =>
      workflowError ("workflow step `" ++ id ++ "` 缺少 runtime_contract.wait_checkpoints 声明。")
        "runtime_contract.wait_checkpoints"
  | _ => [workflowError "runtime_contract.wait_checkpoints 必须是数组。"
      "runtime_contract.wait_checkpoints"]

def requiredFields (contract : Json) : List FormalDiagnostic :=
  requiredContractFields.flatMap fun name => require (!isBlank (contract.field name))
    (workflowError ("runtime_contract." ++ name ++ " 是现实世界协作执行必填字段。")
      ("runtime_contract." ++ name))

/-- `_validate_workflow_contract`: the diagnostics, and the ids of the steps in order. -/
def validateWorkflowContract (contract : Json) (nodeIds : List String) :
    List FormalDiagnostic × List String :=
  let steps := (contract.field "workflow_steps").items
  if steps.isEmpty then
    (requiredFields contract ++ [workflowError
      "runtime_contract.workflow_steps 必须包含从 SKILL.md/README.md 提取出的业务工作流步骤。"
      "runtime_contract.workflow_steps"], [])
  else
    (requiredFields contract ++ validateSteps nodeIds [] 0 steps ++
      validateCheckpoints (stepIds steps) (contract.field "wait_checkpoints"), stepIds steps)

/-! ### The evidence contract -/

def evidenceKinds : List String := ["image", "text", "audio", "video"]

def proofModes : List String := ["visual", "attestation", "measurement"]

/-- A key that is a text and differs from the ones before it. -/
def validateKey (name : String) (seen : List String) (path : String) (key : Json) :
    List FormalDiagnostic :=
  match key with
  | str key =>
    if Text.strip key = "" then [workflowError (name ++ " 必须是非空字符串。") (path ++ "." ++ name)]
    else require (!(key ∈ seen)) (workflowError (name ++ " `" ++ key ++ "` 重复。") (path ++ "." ++ name))
  | _ => [workflowError (name ++ " 必须是非空字符串。") (path ++ "." ++ name)]

/-- What a key adds to the keys seen. -/
def seenKey (key : Json) : List String :=
  match key with
  | str key => if Text.strip key = "" then [] else [key]
  | _ => []

def validateOption (seen : List String) (path : String) (option : Json) : List FormalDiagnostic :=
  let kind := (option.field "kind").strOr
  let proofMode := (option.field "proof_mode").strOr
  if !option.isObj then [workflowError "evidence option 必须是对象。" path]
  else
    validateKey "option_key" seen path (option.field "option_key") ++
    require (kind ∈ evidenceKinds)
      (workflowError ("evidence option kind `" ++ kind ++ "` 不受支持。") (path ++ ".kind")) ++
    require (isText (option.field "event_kind"))
      (workflowError "evidence option.event_kind 必须是非空字符串。" (path ++ ".event_kind")) ++
    require (proofMode ∈ proofModes)
      (workflowError ("proof_mode `" ++ proofMode ++ "` 不受支持。") (path ++ ".proof_mode")) ++
    require (proofMode != "visual" || kind ∈ ["image", "video"])
      (workflowError "proof_mode=visual 只能使用 image 或 video。" path) ++
    require (proofMode != "attestation" || kind ∈ ["text", "audio"])
      (workflowError "proof_mode=attestation 只能使用 text 或 audio。" path)

def validateOptions (path : String) : List String → Nat → List Json → List FormalDiagnostic
  | _, _, [] => []
  | seen, index, option :: rest =>
    validateOption seen (item (path ++ ".evidence_options") index) option ++
    validateOptions path (seen ++ seenKey (option.field "option_key")) (index + 1) rest

def validateRequirement (seen : List String) (path : String) (requirement : Json) :
    List FormalDiagnostic :=
  if !requirement.isObj then [workflowError "requirement 必须是对象。" path]
  else
    validateKey "requirement_key" seen path (requirement.field "requirement_key") ++
    require (isText (requirement.field "description"))
      (workflowError "requirement.description 必须是非空字符串。" (path ++ ".description")) ++
    (match requirement.field "required" with
      | .bool _ => []
      | _ => [workflowError "requirement.required 必须是 boolean。" (path ++ ".required")]) ++
    (let options := (requirement.field "evidence_options").items
     if options.isEmpty then [workflowError "requirement.evidence_options 必须是非空数组。"
        (path ++ ".evidence_options")]
     else validateOptions path [] 0 options)

def validateRequirements (path : String) : List String → Nat → List Json → List FormalDiagnostic
  | _, _, [] => []
  | seen, index, requirement :: rest =>
    validateRequirement seen (item (path ++ ".requirements") index) requirement ++
    validateRequirements path (seen ++ seenKey (requirement.field "requirement_key")) (index + 1) rest

/-- The evidence contract of one step. -/
def validateStepEvidence (expected : Json) (stepId : String) : List FormalDiagnostic :=
  let path := "runtime_contract.expected_evidence." ++ stepId
  let step := expected.field stepId
  let requirements := (step.field "requirements").items
  if !step.isObj then [workflowError ("v2 step `" ++ stepId ++ "` 缺少 evidence contract。") path]
  else if requirements.isEmpty then
    [workflowError "v2 step evidence contract 必须包含非空 requirements。" (path ++ ".requirements")]
  else validateRequirements path [] 0 requirements

/-- `_validate_evidence_contract` -/
def validateEvidenceContract (contract : Json) (stepIds : List String) : List FormalDiagnostic :=
  let version := (contract.field "evidence_contract_version").strOr
  let expected := contract.field "expected_evidence"
  if version = "" then []
  else if version ≠ "psop-evidence/v2" then
    [workflowError ("不支持的 evidence_contract_version：`" ++ version ++ "`。")
      "runtime_contract.evidence_contract_version"]
  else if !expected.isObj then
    [workflowError "v2 runtime_contract.expected_evidence 必须是对象。"
      "runtime_contract.expected_evidence"]
  else stepIds.flatMap (validateStepEvidence expected)

/-! ### The nodes of the workflow -/

/-- The node under an id: the last one counts. -/
def nodeOf (nodes : List Json) (id : String) : Option Json :=
  (nodes.filter fun node => (node.field "id").truthy).reverse.find? fun node =>
    (node.field "id").toStr == id

/-- A node that writes its observation under its own name. -/
def writesOwnObservation (id : String) (node : Json) : Bool :=
  (node.field "merge").items.any fun operation =>
    (operation.field "op").pyEq (str "set") &&
    (operation.field "path").pyEq (str ("observations." ++ id)) &&
    (operation.field "from").pyEq (str "observation")

def isTrue (j : Json) : Bool :=
  match j with
  | .bool b => b
  | _ => false

def validateInstruct (stepIndex : Nat) (stepId : String) (node : Json) : List FormalDiagnostic :=
  let id := instructId stepId
  let interaction := node.field "interaction"
  let turnKind := if stepIndex = 0 then "first_step_instruction" else "step_instruction"
  let path := "nodes[" ++ id ++ "]"
  require ((node.field "kind").pyEq (str "llm"))
    (workflowError ("`" ++ id ++ "` 必须是 llm 指令节点。") (path ++ ".kind")) ++
  require interaction.isObj
    (workflowError ("`" ++ id ++ "` 必须声明 interaction。") (path ++ ".interaction")) ++
  require ((interaction.field "runner_turn_kind").pyEq (str turnKind))
    (workflowError ("`" ++ id ++ "` 必须声明 interaction.runner_turn_kind=" ++ turnKind ++ "。")
      (path ++ ".interaction.runner_turn_kind")) ++
  require (isTrue (interaction.field "output_to_terminal"))
    (workflowError ("`" ++ id ++ "` 必须 output_to_terminal=true。")
      (path ++ ".interaction.output_to_terminal")) ++
  require (isTrue (interaction.field "wait_after_output"))
    (workflowError ("`" ++ id ++ "` 必须 wait_after_output=true。")
      (path ++ ".interaction.wait_after_output")) ++
  require ((interaction.field "resume_phase").pyEq (str (evaluateId stepId)))
    (workflowError ("`" ++ id ++ "` 的 resume_phase 必须指向 `" ++ evaluateId stepId ++ "`。")
      (path ++ ".interaction.resume_phase")) ++
  require (!(interaction.field "expected_inputs").items.isEmpty)
    (workflowError ("`" ++ id ++ "` 必须声明 expected_inputs。") (path ++ ".interaction.expected_inputs"))

def validateEvaluate (stepId : String) (node : Json) : List FormalDiagnostic :=
  let id := evaluateId stepId
  let interaction := node.field "interaction"
  let path := "nodes[" ++ id ++ "]"
  require ((node.field "kind").pyEq (str "llm"))
    (workflowError ("`" ++ id ++ "` 必须是 llm 评估节点。") (path ++ ".kind")) ++
  require (isTrue (interaction.field "evaluation"))
    (workflowError ("`" ++ id ++ "` 必须声明 interaction.evaluation=true。") (path ++ ".interaction")) ++
  require ((interaction.field "runner_turn_kind").pyEq (str "evidence_evaluation"))
    (workflowError ("`" ++ id ++ "` 必须声明 interaction.runner_turn_kind=evidence_evaluation。")
      (path ++ ".interaction.runner_turn_kind")) ++
  require ((node.field "projection").field "user_template").truthy
    (workflowError ("`" ++ id ++ "` 必须包含 projection.user_template。") (path ++ ".projection"))

def validateOwnObservation (id : String) (node : Json) : List FormalDiagnostic :=
  require (writesOwnObservation id node)
    (workflowError ("`" ++ id ++ "` 必须把 observation 写入 observations." ++ id ++ "。")
      ("nodes[" ++ id ++ "].merge"))

/-- The two nodes of a step, if both are there. -/
def validateStepNodes (nodes : List Json) (stepIndex : Nat) (stepId : String) : List FormalDiagnostic :=
  match nodeOf nodes (instructId stepId), nodeOf nodes (evaluateId stepId) with
  | some instruct, some evaluate =>
    validateInstruct stepIndex stepId instruct ++ validateEvaluate stepId evaluate ++
    validateOwnObservation (instructId stepId) instruct ++
    validateOwnObservation (evaluateId stepId) evaluate
  | _, _ => []

def validateFinalVerify (nodes : List Json) : List FormalDiagnostic :=
  match nodeOf nodes "final_verify" with
  | none => [workflowError "terminal(success) 前必须存在 final_verify 或等价最终验证节点。"
      "nodes.final_verify"]
  | some node =>
    require (((node.field "interaction").field "runner_turn_kind").pyEq (str "final_verification"))
      (workflowError "`final_verify` 必须声明 interaction.runner_turn_kind=final_verification。"
        "nodes[final_verify].interaction.runner_turn_kind")

/-- `_validate_workflow_nodes` -/
def validateWorkflowNodes (nodes : List Json) (stepIds : List String) : List FormalDiagnostic :=
  if stepIds.isEmpty then []
  else
    require (stepIds.all fun id => (nodeOf nodes id).isNone) (workflowError
      ("新编译产物不允许把 workflow step 直接编译为同名线性业务节点；" ++
        "必须使用 instruct_<step_id> / evaluate_<step_id> 结构。") "nodes") ++
    validateFinalVerify nodes ++
    (stepIds.zipIdx.flatMap fun entry => validateStepNodes nodes entry.2 entry.1)

/-! ### The artifact -/

/-- `_build_graph_summary` -/
def buildGraphSummary (nodes : List Json) : Json :=
  let nodes := nodes.filter Json.isObj
  let ids := (nodes.filter fun node => (node.field "id").truthy).map fun node => (node.field "id").toStr
  obj [("node_count", num nodes.length), ("template", str "formal-v5 skill workflow graph"),
    ("nodes", arr (ids.map str)),
    ("workflow_nodes", arr ((ids.filter fun id => !(id ∈ scaffoldNodeIds)).map str))]

/-- `_build_capability_summary` -/
def buildCapabilitySummary (nodes : List Json) (contract : Json) : Json :=
  let nodes := nodes.filter Json.isObj
  let tools := nodes.filter fun node => (node.field "kind").pyEq (str "tool")
  obj [("llm_route_key", str (if contract.isObj then (contract.field "llm_route_key").strOr "text"
      else "text")),
    ("llm_nodes", arr ((nodes.filter fun node => (node.field "kind").pyEq (str "llm")).map
      fun node => node.field "id")),
    ("tools", arr (tools.map fun node => str (let tool := toolName (node.field "actor")
      if tool = "" then "psop.demo.inspect_input" else tool))),
    ("terminal_enabled", .bool (hasKind "terminal" nodes))]

def requiredArtifactFields : List String :=
  ["formal_revision", "schema", "nodes", "init", "halt", "policies", "dependency_graph_for_view",
    "runtime_contract"]

def validateHeader (artifact : Fields) : List FormalDiagnostic :=
  (requiredArtifactFields.flatMap fun name => require (lookup name artifact).isSome
    (error ("EG artifact 缺少必需字段 `" ++ name ++ "`。") name)) ++
  require ((firstOf ["formal_revision"] artifact).pyEq (str formalRevision))
    (error ("formal_revision 必须是 `" ++ formalRevision ++ "`。") "formal_revision") ++
  require (firstOf ["schema"] artifact).isObj (error "schema 必须是对象。" "schema") ++
  require (!(firstOf ["nodes"] artifact).items.isEmpty) (error "nodes 必须是非空数组。" "nodes")

def validateGraph (fields : List String) (nodes : List Json) : List FormalDiagnostic :=
  validateNodes fields [] 0 nodes ++
  require (hasKind "start" nodes) (error "EG artifact 必须包含 start 节点。" "nodes") ++
  require (hasKind "terminal" nodes) (error "EG artifact 必须包含 terminal 节点。" "nodes") ++
  eachAt (validateTransitions (nodeIds nodes)) "nodes" 0 nodes

def validateInit (nodeIds : List String) (init : Json) : List FormalDiagnostic :=
  require init.isObj (error "init 必须是对象。" "init") ++
  (match init.field "entry_node" with
    | str entry => require (entry == "" || nodeIds.isEmpty || entry ∈ nodeIds)
        (error ("init.entry_node `" ++ entry ++ "` 不存在。") "init.entry_node")
    | _ => [])

def validateHalt (halt : Json) : List FormalDiagnostic :=
  match halt with
  | obj fs => require ((lookup "success" fs).isSome || (lookup "failure" fs).isSome)
      (error "halt 至少需要 success 或 failure 条件。" "halt")
  | _ => [error "halt 必须是对象。" "halt"]

def validateContract (nodes : List Json) (contract : Json) : List FormalDiagnostic :=
  if !contract.isObj then [error "runtime_contract 必须是对象。" "runtime_contract"]
  else
    let workflow := validateWorkflowContract contract (nodeIds nodes)
    workflow.1 ++ validateEvidenceContract contract workflow.2 ++ validateWorkflowNodes nodes workflow.2

/-- The diagnostics of a normalised artifact. -/
def validateArtifact (artifact : Fields) : List FormalDiagnostic :=
  let nodes := (firstOf ["nodes"] artifact).items
  validateHeader artifact ++
  validateGraph (tokenFields (firstOf ["schema"] artifact)) nodes ++
  validateInit (nodeIds nodes) (firstOf ["init"] artifact) ++
  validateHalt (firstOf ["halt"] artifact) ++
  validateContract nodes (firstOf ["runtime_contract"] artifact)

/-- The artifact as it is stored, with its summaries. -/
def summarized (artifact : Fields) : Fields :=
  let nodes := (firstOf ["nodes"] artifact).items
  let versioned := match lookup "artifact_version" artifact with
    | some _ => artifact
    | none => setKey "artifact_version" (str artifactVersion) artifact
  setKey "capability_summary" (buildCapabilitySummary nodes (firstOf ["runtime_contract"] artifact))
    (setKey "graph_summary" (buildGraphSummary nodes) versioned)

/-- A kind that cannot be looked up in the set of kinds. -/
def raisesOnKind (artifact : Fields) : Bool :=
  (firstOf ["nodes"] artifact).items.any fun node => unhashable (node.field "kind")

/-- `validate_and_normalize_artifact` -/
def validateAndNormalizeArtifact (candidate : Json) : Option FormalValidationResult :=
  match candidate with
  | obj candidate => (normalizeCandidate candidate).bind fun artifact =>
      if raisesOnKind artifact then none
      else
        let diagnostics := validateArtifact artifact
        some ⟨if hasErrors diagnostics then none else some (obj (summarized artifact)), diagnostics⟩
  | _ => some ⟨none, [error "编译智能体输出必须是 JSON object。" "$"]⟩

/-- The artifact as it is stored if the validator objects to nothing. -/
def accepted (candidate : Json) : Option Json :=
  (validateAndNormalizeArtifact candidate).bind FormalValidationResult.artifact

end Psop.Compiler
