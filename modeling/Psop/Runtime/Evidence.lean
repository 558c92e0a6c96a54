import Psop.Runtime.Token

/-!
The evidence ledger of a wait and the wait's entry.

A workflow step's evidence contract lists requirements. Entering a wait writes the wait into
`control.wait` and a ledger into `control.evidence_progress`, every requirement `missing`.
An evaluation updates the ledger from the runner's requirement results; an accepted requirement is
not taken back by a result that merely misses it.
-/
namespace Psop.Runtime

open Json

def numberedKey (index : Nat) : String := "evidence_" ++ toString index

/-- The raw requirement items of a step's contract, in any of its accepted shapes. -/
def requirementItems (raw : Json) : List Json :=
  match raw with
  | obj entries =>
    match raw.field "requirements", raw.field "items" with
    | arr xs, _ => xs
    | _, arr xs => xs
    | _, _ => entries.map fun (key, value) => match value with
      | obj fs => obj (union [("requirement_key", str key)] fs)
      | value => obj [("requirement_key", str key), ("description", str value.toStr)]
  | arr xs => xs
  | _ => []

def optionFields (option : Json) : Json :=
  obj (["option_key", "kind", "event_kind", "proof_mode"].filterMap fun key =>
    (option.field? key).map fun value => (key, value))

/-- One item of `_evidence_requirements_for_workflow_step`, numbered from one. -/
def normalizeRequirement (index : Nat) (raw : Json) : Json :=
  let item := if raw.isObj then raw else obj [("description", str raw.toStr)]
  let named := Text.strip
    ((((item.field "requirement_key").or (item.field "id")).or (item.field "key")).strOr
      (numberedKey index))
  let key := if named = "" then numberedKey index else named
  let description := ((item.field "description").or (item.field "title")).strOr key
  let required := match item.field "required" with
    | .bool false => false
    | _ => true
  let kinds := ["kind", "event_kind"].filterMap fun field =>
    if (item.field field).truthy then some (field, item.field field) else none
  let options := match item.field "evidence_options" with
    | arr options => [("evidence_options", arr ((options.filter Json.isObj).map optionFields))]
    | _ => []
  obj ([("requirement_key", str key), ("description", str description), ("required", .bool required)]
    ++ kinds ++ options)

def normalizeFrom (index : Nat) : List Json → List Json
  | [] => []
  | raw :: rest => normalizeRequirement index raw :: normalizeFrom (index + 1) rest

/-- `_evidence_requirements_for_workflow_step` -/
def evidenceRequirements (artifact : Json) (workflowStepId : String) : List Json :=
  let raw := (artifact.at? ["runtime_contract", "expected_evidence", workflowStepId]).getD null
  normalizeFrom 1 (requirementItems raw)

def openRequirement (now nodeId : String) (requirement : Json) : Json :=
  obj (requirement.fields ++ [("status", str "missing"), ("accepted_event_refs", arr []),
    ("rejected_event_refs", arr []), ("latest_event_refs", arr []), ("reason", str ""),
    ("updated_at", str now), ("updated_by_node", str nodeId)])

/-- `_build_evidence_progress` -/
def buildEvidenceProgress (now nodeId : String) (wait artifact : Json) : Json :=
  obj [("checkpoint_id", str (wait.field "checkpoint_id").strOr),
    ("workflow_step_id", str (wait.field "workflow_step_id").strOr),
    ("requirements", arr
      ((evidenceRequirements artifact (wait.field "workflow_step_id").strOr).map
        (openRequirement now nodeId))),
    ("updated_at", str now), ("updated_by_node", str nodeId)]

/-- `_evidence_progress_matches_wait` -/
def progressMatchesWait (progress wait : Json) : Bool :=
  (progress.field "checkpoint_id").strOr == (wait.field "checkpoint_id").strOr &&
    (progress.field "workflow_step_id").strOr == (wait.field "workflow_step_id").strOr

/-- `_string_list` -/
def stringList (value : Json) : List String :=
  (value.items.map fun item => Text.strip item.toStr).filter (· ≠ "")

def evidenceStatuses : List String := ["accepted", "rejected", "missing", "ambiguous", "not_applicable"]

/-- A ledger entry after one result for it, `none` where the result is passed over. -/
def applyResult (now nodeId : String) (result requirement : Json) : Option Json :=
  let status := Text.lower (Text.strip (result.field "status").strOr)
  if status ∉ evidenceStatuses then none
  else if (requirement.field "status").str? = some "accepted" ∧ (status = "missing" ∨ status = "ambiguous")
  then none
  else
    let refs := stringList (result.field "event_refs")
    let fields := setKey "status" (str status) requirement.fields
    let fields := setKey "latest_event_refs" (arr (refs.map str)) fields
    let fields := setKey "reason" (str (result.field "reason").strOr) fields
    let fields := setKey "satisfied_by" (str (result.field "satisfied_by").strOr) fields
    let fields := setKey "updated_at" (str now) fields
    let fields := setKey "updated_by_node" (str nodeId) fields
    let collect := fun key fields => setKey key
      (arr ((Text.unique (stringList (requirement.field key) ++ refs)).map str)) fields
    some (obj (if status = "accepted" then collect "accepted_event_refs" fields
      else if status = "rejected" then collect "rejected_event_refs" fields
      else fields))

def requirementKey (requirement : Json) : String := (requirement.field "requirement_key").strOr

/-- Update of the entry a key names: the last of the list, as a dictionary by key would hold it. -/
def updateKeyed (key : String) (update : Json → Option Json) : List Json → List Json
  | [] => []
  | entry :: rest =>
    if rest.any fun later => requirementKey later == key then entry :: updateKeyed key update rest
    else if requirementKey entry = key then (update entry).getD entry :: rest
    else entry :: rest

/-- The ledger entries after one requirement result. -/
def mergeResult (now nodeId : String) (requirements : List Json) (result : Json) : List Json :=
  let key := Text.strip (result.field "requirement_key").strOr
  if !result.isObj || key == "" then requirements
  else updateKeyed key (applyResult now nodeId result) requirements

def mergeResults (now nodeId : String) (results : List Json) (progress : Json) : Json :=
  let requirements := match progress.field "requirements" with
    | arr entries => setKey "requirements" (arr (results.foldl (mergeResult now nodeId) entries))
        progress.fields
    | _ => progress.fields
  obj (setKey "updated_by_node" (str nodeId) (setKey "updated_at" (str now) requirements))

def requirementResults (observation : Json) : List Json :=
  ((observation.at? ["evidence_assessment", "requirement_results"]).getD null).items

/-- The ledger of the token, where it has one. -/
def evidenceProgress? (token : Json) : Option Json :=
  match token.at? ["control", "evidence_progress"] with
  | some (obj fs) => some (obj fs)
  | _ => none

/-- The ledger the results are merged into: the token's own where it belongs to the current wait, a
new one otherwise. An absent ledger matches an absent wait, and is then not kept. -/
def currentProgress (now nodeId : String) (artifact token : Json) : Option Json :=
  let wait := (wait? token).getD (obj [])
  match evidenceProgress? token with
  | some progress =>
    some (if progressMatchesWait progress wait then progress
      else buildEvidenceProgress now nodeId wait artifact)
  | none =>
    if progressMatchesWait (obj []) wait then none
    else some (buildEvidenceProgress now nodeId wait artifact)

/-- `_merge_evidence_progress_from_observation` -/
def mergeEvidenceProgress (now nodeId : String) (artifact observation token : Json) : Option Json :=
  let results := requirementResults observation
  if results.isEmpty then some token
  else (token.setDefault? ["control"] (obj [])).bind fun token =>
    match currentProgress now nodeId artifact token with
    | some progress =>
      token.put? ["control", "evidence_progress"] (mergeResults now nodeId results progress)
    | none => some token

/-! ### Entering a wait -/

/-- `node.get("interaction")`, an empty object where it is none. -/
def interaction (node : Json) : Json := obj (node.field "interaction").fields

def nodeId (node : Json) : String := (node.field "id").strOr

/-- `_latest_consumed_terminal_seq` -/
def latestConsumedSeq (token : Json) : Int := (((consumption token).filterMap recordSeq).max?).getD 0

/-- `_latest_synced_terminal_seq` -/
def latestSyncedSeq (token : Json) : Int :=
  let seqs := [cursor? token, ((token.at? ["terminal", "latest_seq"]).getD null).toIntOr0?]
  ((seqs.filterMap id).max?).getD 0

/-- The waits entered so far, as the token lists them. -/
def waitCheckpoints (token : Json) : List Json :=
  ((token.at? ["control", "wait_checkpoints"]).getD null).items

/-- `_has_prior_wait_checkpoint` -/
def hasPriorWait (token : Json) : Bool :=
  (wait? token).isSome || !(waitCheckpoints token).isEmpty || !(consumption token).isEmpty

/-- `_wait_checkpoint_accept_after_seq` -/
def waitAcceptAfterSeq (default : Int) (token : Json) : Int :=
  let candidates := max default (latestConsumedSeq token)
  if hasPriorWait token then max candidates (latestSyncedSeq token) else candidates

/-- `_normalize_wait_expected_inputs` -/
def normalizeExpectedInputs (items : List Json) : List Json :=
  items.filterMap fun item => match item with
    | obj fs => some (obj fs)
    | item =>
      let kind := Text.strip item.strOr
      if kind = "" then none else some (obj [("kind", str kind)])

def expectedInputs (node observation : Json) : List Json :=
  match observation.field "expected_inputs" with
  | arr (item :: rest) => normalizeExpectedInputs (item :: rest)
  | _ => ((interaction node).field "expected_inputs").items

def checkpointId (node : Json) : String :=
  ((interaction node).field "checkpoint_id").strOr ((node.field "id").toStr ++ ":wait")

def workflowStepId (node : Json) : String :=
  (((interaction node).field "workflow_step_id").or (node.field "id")).strOr

/-- The wait `_enter_wait_checkpoint` writes. -/
def newWait (now runId : String) (node observation : Json) (acceptAfterSeq : Int) : Json :=
  obj [("status", str "waiting"), ("checkpoint_id", str (checkpointId node)),
    ("workflow_step_id", str (workflowStepId node)),
    ("reason", str (((observation.field "wait_reason").or
      ((interaction node).field "wait_reason")).strOr "等待用户提交现场证据。")),
    ("expected_inputs", arr (expectedInputs node observation)),
    ("resume_phase", str (((interaction node).field "resume_phase").strOr
      ("evaluate_" ++ (node.field "id").toStr))),
    ("entered_by_node", str (nodeId node)), ("entered_at", str now), ("run_id", str runId),
    ("input_window", obj [("accept_after_seq", num acceptAfterSeq),
      ("policy", str "checkpoint_scoped")]),
    ("evidence", arr [])]

def checkpointEntry (now : String) (node : Json) : Json :=
  obj [("checkpoint_id", str (checkpointId node)), ("workflow_step_id", str (workflowStepId node)),
    ("entered_by_node", str (nodeId node)), ("entered_at", str now)]

/-- `_enter_wait_checkpoint` -/
def enterWaitCheckpoint (now runId : String) (node observation artifact : Json)
    (acceptAfterSeq : Int) (token : Json) : Option Json := do
  let wait := newWait now runId node observation acceptAfterSeq
  let token ← token.put? ["control", "wait"] wait
  let token ← token.put? ["control", "evidence_progress"]
    (buildEvidenceProgress now (nodeId node) wait artifact)
  let token ← token.push? ["control", "wait_checkpoints"] (checkpointEntry now node)
  let token ← token.put? ["status"] (str "waiting")
  token.put? ["phase"] (str "waiting")

end Psop.Runtime
