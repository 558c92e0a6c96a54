import Psop.Runtime.Terminal

/-!
The session token and the ways terminal events enter it.

The token is a JSON object. What the runtime keeps for itself lies under `metadata.terminal_cursor`,
`terminal` and `control`: the cursor up to which the event stream has been copied, the copies, the
current wait with its input window, and the consumption records. `syncTerminalEvents` copies the
suffix of the stream after the cursor at the start of a turn; `consumePendingTerminalInputs` takes
inputs that were already there when a wait is entered. Both hand an input to the wait only through
`canConsume`, and record it.

Functions that would raise on a malformed token are undefined there.
-/
namespace Psop.Runtime

open Json

/-! ### Reading the token -/

/-- `_initial_phase` -/
def initialPhase (artifact : Json) : String :=
  match artifact.at? ["init", "entry_node"] with
  | some (str entry) => entry
  | _ => "start"

/-- `_build_initial_token` -/
def buildInitialToken (inputEnvelope artifact : Json) : Json :=
  obj [("phase", str (initialPhase artifact)), ("input_envelope", inputEnvelope),
    ("observations", obj []), ("budgets", obj [("llm_calls", num 0), ("tool_calls", num 0)]),
    ("outputs", obj []), ("control", obj []),
    ("metadata", obj [("artifact_version", artifact.field "artifact_version"),
      ("terminal_cursor", num 0)]),
    ("terminal", obj [("events", arr []), ("latest_seq", num 0)]),
    ("facts", obj []), ("registers", obj []), ("memory", obj []), ("trace", arr []),
    ("status", str "running")]

/-- `token.get("status") == status` -/
def hasStatus (token : Json) (status : String) : Bool := (token.field "status").str? == some status

/-- The current wait, where `control.wait` is an object. -/
def wait? (token : Json) : Option Json :=
  match token.at? ["control", "wait"] with
  | some (obj fs) => some (obj fs)
  | _ => none

/-- `_token_is_waiting_for_terminal_input` -/
def isWaiting (token : Json) : Bool := hasStatus token "waiting" && (wait? token).isSome

/-- `int(_get_path(token, "metadata.terminal_cursor") or 0)` -/
def cursor? (token : Json) : Option Int :=
  ((token.at? ["metadata", "terminal_cursor"]).getD null).toIntOr0?

/-- The wait's `accept_after_seq`, zero where the window holds no number. -/
def acceptAfter (wait : Json) : Int :=
  (((wait.at? ["input_window", "accept_after_seq"]).getD null).toIntOr0?).getD 0

/-- The records of `control.terminal_consumption`. -/
def consumption (token : Json) : List Json :=
  ((token.at? ["control", "terminal_consumption"]).getD null).items

/-- The number a consumption record is compared by. -/
def recordSeq (record : Json) : Option Int := (record.field "seq_no").int?

def hasConsumed (token : Json) (seqNo : Int) : Bool :=
  (consumption token).any fun record => recordSeq record == some seqNo

/-- The events of `terminal.events`. -/
def tokenEvents (token : Json) : List Json :=
  ((token.at? ["terminal", "events"]).getD null).items

/-- `_runtime_phase_from_token` -/
def runtimePhaseFromToken (token : Json) : String :=
  match wait? token with
  | some wait =>
    if hasStatus token "waiting"
    then (((wait.field "checkpoint_id").or (wait.field "workflow_step_id")).or (str "waiting")).toStr
    else (token.field "phase").strOr
  | none => (token.field "phase").strOr

/-! ### Compaction -/

/-- `_llm_prompt_summary`: a prompt is kept as its hashes and lengths. -/
def llmPromptSummary (sha256 : String → String) (systemPrompt userPrompt : String)
    (routeKey : Option String) : Fields :=
  let combined := systemPrompt ++ String.singleton (Char.ofNat 0) ++ userPrompt
  [("prompt_hash", str (sha256 combined)), ("system_prompt_hash", str (sha256 systemPrompt)),
    ("user_prompt_hash", str (sha256 userPrompt)), ("system_chars", num systemPrompt.toList.length),
    ("user_chars", num userPrompt.toList.length),
    ("total_chars", num (systemPrompt.toList.length + userPrompt.toList.length))] ++
    match routeKey with
    | some key => if key = "" then [] else [("route_key", str key)]
    | none => []

/-- `_compact_llm_observation` -/
def compactLlmObservation (sha256 : String → String) (observation : Json) : Json :=
  let input := observation.field "input"
  if !input.isObj || !((input.field? "system_prompt").isSome || (input.field? "user_prompt").isSome)
  then observation
  else
    let rest := popKey "input" observation.fields
    let summary := llmPromptSummary sha256 (input.field "system_prompt").strOr
      (input.field "user_prompt").strOr (input.field "route_key").str?
    let summary := union summary (observation.field "input_summary").fields
    obj (setKey "input_summary" (obj summary) rest)

/-- `_compact_runtime_token` -/
def compactRuntimeToken (sha256 : String → String) (token : Json) : Json :=
  match token.at? ["observations"] with
  | some (obj observations) =>
    obj (setKey "observations"
      (obj (observations.map fun entry => (entry.1, compactLlmObservation sha256 entry.2)))
      token.fields)
  | _ => token

/-! ### Consumption -/

/-- `_can_consume_terminal_input_for_wait`, for the wait the token holds. -/
def canConsume (event : TerminalEvent) (token : Json) : Bool :=
  match wait? token with
  | some wait => decide (acceptAfter wait < event.seqNo) && !hasConsumed token event.seqNo
  | none => false

def consumptionRecord (now : String) (event : TerminalEvent) (wait : Json) : Json :=
  obj [("seq_no", num event.seqNo), ("event_id", str event.id),
    ("checkpoint_id", str (wait.field "checkpoint_id").strOr),
    ("workflow_step_id", str (wait.field "workflow_step_id").strOr), ("consumed_at", str now)]

/-- `_record_terminal_consumption` -/
def recordTerminalConsumption (now : String) (event : TerminalEvent) (token : Json) : Option Json :=
  if hasConsumed token event.seqNo then some token
  else
    let record := consumptionRecord now event ((wait? token).getD null)
    alter? ["control", "terminal_consumption"] (fun current => match current with
      | some (arr records) => some (arr (records ++ [record]))
      | _ => some (arr [record])) (some token)

/-- The latest input text becomes `user_input`, the first one ever `text`. -/
def noteUserInput (text : String) (token : Json) : Option Json :=
  if text = "" then some token
  else do
    let token ← token.put? ["input_envelope", "user_input"] (str text)
    token.setDefault? ["input_envelope", "text"] (str text)

/-- An input becomes evidence of the wait. -/
def takeEvidence (now : String) (event : TerminalEvent) (token : Json) : Option Json := do
  let token ← token.push? ["control", "wait", "evidence"] event.evidence
  recordTerminalConsumption now event token

/-- After at least one input was taken: the wait is received and the resume phase runs. -/
def receiveEvidence (latest : Json) (token : Json) : Option Json := do
  let wait := (wait? token).getD null
  let phase := (((wait.field "resume_phase").or (token.field "phase")).or (str "start")).toStr
  let token ← token.put? ["control", "wait", "latest_event_seq"] (latest.field "seq_no")
  let token ← token.put? ["control", "wait", "status"] (str "received")
  let token ← token.put? ["control", "latest_evidence"] latest
  let token ← token.put? ["status"] (str "running")
  token.put? ["phase"] (str phase)

/-- The first lines of both paths: the event list and the input envelope exist. -/
def openTerminal (token : Json) : Option Json := do
  let token ← token.setDefault? ["terminal", "events"] (arr [])
  token.setDefault? ["input_envelope"] (obj [])

def finishTaking (taken : Json × List Json) : Option (Json × Bool) :=
  match taken.2.getLast? with
  | none => some (taken.1, false)
  | some latest => (receiveEvidence latest taken.1).map fun token => (token, true)

/-! ### Synchronisation at the start of a turn -/

/-- `_ensure_wait_input_window` -/
def ensureWaitInputWindow (cursor : Int) (token : Json) : Option Json :=
  match token.at? ["control", "wait", "input_window"] with
  | some (obj window) => do
    let token ← token.setDefault? ["control", "wait", "input_window", "policy"]
      (str "checkpoint_scoped")
    token.put? ["control", "wait", "input_window", "accept_after_seq"]
      (num ((((lookup "accept_after_seq" window).getD null).toIntOr0?).getD cursor))
  | _ => token.put? ["control", "wait", "input_window"]
      (obj [("accept_after_seq", num cursor), ("policy", str "checkpoint_scoped")])

/-- The event is copied and the cursor moves onto it. -/
def copyEvent (event : TerminalEvent) (token : Json) : Option Json := do
  let token ← token.push? ["terminal", "events"] event.tokenPayload
  let token ← token.put? ["terminal", "latest_seq"] (num event.seqNo)
  token.put? ["metadata", "terminal_cursor"] (num event.seqNo)

/-- One event of the suffix; the second component collects the evidence taken so far. -/
def syncEvent (now : String) (taken : Json × List Json) (event : TerminalEvent) :
    Option (Json × List Json) := do
  let token ← copyEvent event taken.1
  match event.direction with
  | .output => some (token, taken.2)
  | .input => do
    let token ← noteUserInput event.inputText token
    if canConsume event token then
      let token ← takeEvidence now event token
      some (token, taken.2 ++ [event.evidence])
    else some (token, taken.2)

/-- `list_terminal_events(from_seq=…, to_seq=…)` -/
def eventsFrom (fromSeq : Int) (events : List TerminalEvent) : List TerminalEvent :=
  events.filter fun event => decide (fromSeq ≤ event.seqNo)

def eventsBetween (fromSeq toSeq : Int) (events : List TerminalEvent) : List TerminalEvent :=
  (eventsFrom fromSeq events).filter fun event => decide ((event.seqNo : Int) ≤ toSeq)

/-- `_sync_terminal_events` -/
def syncTerminalEvents (now : String) (events : List TerminalEvent) (token : Json) : Option Json :=
  if !isWaiting token then some token
  else do
    let cursor ← cursor? token
    match eventsFrom (cursor + 1) events with
    | [] => some token
    | suffix => do
      let opened ← openTerminal token
      let windowed ← ensureWaitInputWindow cursor opened
      let taken ← suffix.foldlM (syncEvent now) (windowed, [])
      (finishTaking taken).map Prod.fst

/-! ### Immediate consumption when a wait is entered -/

/-- The ids the copied events carry. -/
def tokenEventIds (token : Json) : List String :=
  (tokenEvents token).filterMap fun item =>
    let id := (item.field "id").strOr
    if item.isObj && id != "" then some id else none

/-- An input is copied unless its id is there already. -/
def addCopy (event : TerminalEvent) (token : Json) : Option Json :=
  if event.id ∈ tokenEventIds token then some token
  else token.push? ["terminal", "events"] event.evidence

/-- The copy, and the cursor moved up to the input. -/
def copyInput (event : TerminalEvent) (token : Json) : Option Json := do
  let token ← addCopy event token
  let latest ← ((token.at? ["terminal", "latest_seq"]).getD null).toIntOr0?
  let token ← token.put? ["terminal", "latest_seq"] (num (max latest event.seqNo))
  let cursor ← cursor? token
  token.put? ["metadata", "terminal_cursor"] (num (max cursor event.seqNo))

def consumeEvent (now : String) (taken : Json × List Json) (event : TerminalEvent) :
    Option (Json × List Json) :=
  match event.direction with
  | .output => some taken
  | .input =>
    if !canConsume event taken.1 then some taken
    else do
      let token ← noteUserInput event.inputText taken.1
      let token ← copyInput event token
      let token ← takeEvidence now event token
      some (token, taken.2 ++ [event.evidence])

/-- `_consume_pending_terminal_inputs_for_wait`: the token and whether the wait was received. -/
def consumePendingTerminalInputs (now : String) (latestTerminalSeq : Int)
    (events : List TerminalEvent) (token : Json) : Option (Json × Bool) :=
  match wait? token with
  | none => some (token, false)
  | some wait =>
    if !hasStatus token "waiting" || decide (latestTerminalSeq ≤ acceptAfter wait)
    then some (token, false)
    else do
      let opened ← openTerminal token
      let taken ← (eventsBetween (acceptAfter wait + 1) latestTerminalSeq events).foldlM
        (consumeEvent now) (opened, [])
      finishTaking taken

end Psop.Runtime
