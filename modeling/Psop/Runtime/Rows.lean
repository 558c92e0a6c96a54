import Psop.Runtime.Node

/-!
The rows of one run and the transactions every writer shares.

`Rows` is the committed state of one run: its own row, its runtime job, whether its terminal session
is open, its snapshots and its terminal events, oldest first. A terminal event is appended under the
job and the run lock by `appendTerminalEvent`, which numbers it and keeps the two uniqueness
constraints of its table; it is undefined where the source raises. `finishRuntimeJobTurn` and
`ensureRuntimeJobPending` are the two halves of the wake-up protocol: a turn that ends looks for
inputs after its cursor, an append that finds the job running leaves a note for it.

A snapshot and a running turn also carry `waits`, the history of the waits entered so far with what
each of them consumed. No function reads it.
-/
namespace Psop.Runtime

open Json

inductive RunStatus where
  | waitingRuntime | queued | running | waitingInput | succeeded | failed | cancelled | aborted
deriving DecidableEq, Repr

/-- `status in {"succeeded", "failed", "cancelled", "aborted"}` -/
def RunStatus.finished : RunStatus → Bool
  | succeeded | failed | cancelled | aborted => true
  | _ => false

inductive JobStatus where
  | pending | running | retryableFailed | succeeded | failed | cancelled
deriving DecidableEq, Repr

structure RunRow where
  id : String
  status : RunStatus
  runtimePhase : String
  exitReason : String := ""
  finalOutput : String := ""
  latestSnapshotSeq : Nat := 0
  latestTerminalSeq : Nat := 0
deriving Repr

/-- A runtime job. The owner of an attempt is unique to it. -/
structure JobRow where
  status : JobStatus := .pending
  attemptNo : Nat := 0
  maxAttempts : Nat
  workerName : Option Nat := none
  leaseUntil : Option Nat := none
  availableAt : Nat
  rerunRequested : Bool := false
  lastError : String := ""
deriving Repr

/-- One entered wait: the window it opened, the run's last terminal number at that moment, and the
numbers of the inputs it consumed. -/
structure WaitMark where
  acceptAfter : Int
  enteredAt : Nat
  consumed : List Int
deriving Repr, DecidableEq

structure Snapshot where
  seqNo : Nat
  token : Json
  enabledSet : List String
  selected : Option String
  waits : List WaitMark
deriving Repr

structure Rows where
  artifact : Json
  run : RunRow
  job : Option JobRow
  sessionOpen : Bool
  snapshots : List Snapshot
  events : List TerminalEvent
  jobMaxAttempts : Nat

/-- The parts of the host the runtime only quotes. -/
structure Platform where
  sha256 : String → String
  isoformat : Nat → String

namespace Rows

def lastSnapshot? (rows : Rows) : Option Snapshot := rows.snapshots.getLast?

def finished (rows : Rows) : Bool := rows.run.status.finished

/-! ### Terminal events -/

/-- The arguments of an append: a request's, or the runtime's own, with the ids its rows get. The parts are
those of `_validate_terminal_event_part`. -/
structure EventDraft where
  id : String
  direction : String
  eventKind : String
  mimeType : String
  payloadInline : Json
  artifactObjectId : Json := null
  bindingId : Json := null
  externalEventId : Option String := none
  sourceRef : Json := obj []
  occurredAt : String
  parts : List TerminalEventPart := []
  textPartId : String := ""
deriving Repr

/-- `_normalize_terminal_event_parts` of an event that comes without parts: the text of its payload. -/
def textParts (draft : EventDraft) (direction : Direction) : List TerminalEventPart :=
  let isText := Text.startsWith "text/" (Text.lower (Text.strip draft.mimeType)) ||
    Text.startsWith "terminal.text." (Text.lower (Text.strip draft.eventKind))
  let text := inputTextFromPayload draft.payloadInline
  if draft.artifactObjectId.truthy || (direction == .output && !isText) || text == "" then []
  else [{ id := draft.textPartId, partId := "text_1", orderIndex := 1, kind := "text"
          mimeType := if direction = .output then draft.mimeType else "text/plain"
          text := text, artifactObjectId := null, sizeBytes := 0, checksum := "", metadata := obj [] }]

/-- `get_terminal_event_by_external_id` -/
def eventByExternalId? (rows : Rows) (externalId : String) : Option TerminalEvent :=
  rows.events.find? fun event => event.externalEventId == some externalId

/-- The row an append stores. -/
def eventRow (rows : Rows) (draft : EventDraft) (direction : Direction) : TerminalEvent :=
  { id := draft.id
    seqNo := rows.run.latestTerminalSeq + 1
    direction := direction
    eventKind := draft.eventKind
    mimeType := draft.mimeType
    payloadInline := draft.payloadInline
    artifactObjectId := draft.artifactObjectId
    bindingId := draft.bindingId
    externalEventId := draft.externalEventId
    sourceRef := draft.sourceRef
    occurredAt := draft.occurredAt
    parts := if draft.parts.isEmpty then textParts draft direction else draft.parts }

/-- Neither the primary key nor `uk_terminal_event_run_external` is taken. -/
def keysFree (rows : Rows) (draft : EventDraft) : Bool :=
  rows.events.all fun event => event.id != draft.id &&
    (draft.externalEventId.isNone || event.externalEventId != draft.externalEventId)

/-- `_append_terminal_event` -/
def appendTerminalEvent (draft : EventDraft) (rows : Rows) : Option (Rows × TerminalEvent) :=
  match Direction.ofText draft.direction with
  | none => none
  | some direction =>
    if draft.eventKind = "" ∨ draft.mimeType = "" ∨ !rows.keysFree draft then none
    else
      let event := rows.eventRow draft direction
      some ({ rows with
        run := { rows.run with latestTerminalSeq := rows.run.latestTerminalSeq + 1 }
        events := rows.events ++ [event] }, event)

/-- An output of the runtime itself. -/
def outputDraft (id now mimeType message : String) (externalId : Option String) (sourceRef : Json) :
    EventDraft :=
  { id := id, direction := "output", eventKind := "terminal.text.output.v1", mimeType := mimeType
    payloadInline := str message, externalEventId := externalId, sourceRef := sourceRef
    occurredAt := now }

/-- An output is appended only while the session is open. -/
def appendIfOpen (draft : EventDraft) (rows : Rows) : Option (Rows × Option TerminalEvent) :=
  if rows.sessionOpen
  then (rows.appendTerminalEvent draft).map fun (rows, event) => (rows, some event)
  else some (rows, none)

/-! ### The runtime job -/

/-- `_ensure_runtime_job_pending` -/
def ensureRuntimeJobPending (now : Nat) (rows : Rows) : Rows :=
  match rows.job with
  | none => { rows with job := some { maxAttempts := rows.jobMaxAttempts, availableAt := now } }
  | some job =>
    if job.status = .running then { rows with job := some { job with rerunRequested := true } }
    else { rows with job := some { job with
      rerunRequested := false, status := .pending, availableAt := now, leaseUntil := none
      workerName := none, attemptNo := 0, lastError := "" } }

/-- `_has_unsynced_terminal_inputs` past a cursor. -/
def hasInputsAfter (rows : Rows) (cursor : Int) : Bool :=
  (eventsFrom (cursor + 1) rows.events).any fun event => event.direction == .input

def requeuedJob (now : Nat) (job : JobRow) : JobRow :=
  { job with
    rerunRequested := false, status := .pending, availableAt := now, attemptNo := 0
    leaseUntil := none, workerName := none, lastError := "" }

def restingJob (status : JobStatus) (lastError : String) (job : JobRow) : JobRow :=
  { job with
    rerunRequested := false, status := status, leaseUntil := none, workerName := none
    lastError := lastError }

/-- `_finish_runtime_job_turn`: undefined where the cursor of an open run's token is no number. -/
def finishRuntimeJobTurn (now : Nat) (token : Json) (status : JobStatus) (lastError : String)
    (rows : Rows) : Option Rows :=
  match rows.job with
  | none => some rows
  | some job =>
    if rows.finished then some { rows with job := some (restingJob status lastError job) }
    else (cursor? token).map fun cursor =>
      if job.rerunRequested || rows.hasInputsAfter cursor
      then { rows with job := some (requeuedJob now job) }
      else { rows with job := some (restingJob status lastError job) }

/-! ### Leases -/

/-- `_validate_active_job_lease`: an attempt without a lease is not fenced. -/
def holdsLease (now : Nat) (owner : Option Nat) (rows : Rows) : Bool :=
  match owner with
  | none => true
  | some owner => match rows.job with
    | none => false
    | some job => job.status == .running && job.workerName == some owner &&
        match job.leaseUntil with
        | some deadline => decide (now < deadline)
        | none => false

/-- The condition `worker_name = owner and status = running` of the queue's own updates. -/
def owns (owner : Nat) (job : JobRow) : Bool :=
  job.status == .running && job.workerName == some owner

/-- `_truncate_exit_reason` -/
def truncateExitReason (value : String) : String :=
  let cs := value.toList
  if cs.length ≤ 255 then value else String.ofList (cs.take 252) ++ "..."

/-- `_runtime_failure_terminal_message` -/
def failureMessage (error : String) : String :=
  let stripped := Text.strip error
  "Runtime 执行失败，当前运行已停止。\n\n错误原因：" ++ (if stripped = "" then "未知错误" else stripped) ++
    "\n\n请查看运行回放或 Trace Events 获取更多排障信息。"

def failureDraft (rows : Rows) (id now error : String) (trace : TraceRef) : EventDraft :=
  outputDraft id now "text/plain" (failureMessage error) (some ("runtime:" ++ rows.run.id ++ ":failed"))
    (obj [("kind", str "runtime"), ("status", str "failed"), ("trace_event_id", str trace.id)])

/-- The recoverable failure's message and its external id. -/
def recoveryDraft (rows : Rows) (id now : String) (trace : TraceRef) : EventDraft :=
  outputDraft id now "text/plain" "刚才服务器开小差了，请您重试！"
    (some ("runtime:" ++ rows.run.id ++ ":message-processing-failed:" ++ toString trace.seqNo))
    (obj [("kind", str "runtime"), ("status", str "recoverable_failed"),
      ("trace_event_id", str trace.id)])

/-- `finalize_exhausted_job`, with the job already locked. -/
def finalizeExhaustedJob (now id error : String) (trace : TraceRef) (rows : Rows) : Option Rows :=
  match rows.job with
  | none => some rows
  | some job =>
    if rows.finished then some rows
    else
      let stripped := Text.strip error
      let reason := if stripped = "" then "Runtime job attempts exhausted." else stripped
      let failed := { rows with
        run := { rows.run with
          status := .failed, runtimePhase := "failed", exitReason := truncateExitReason reason }
        job := some { job with
          status := .failed, workerName := none, leaseUntil := none, lastError := reason } }
      (failed.appendIfOpen (failureDraft failed id now reason trace)).map fun (rows, _) =>
        { rows with sessionOpen := false }

/-- A snapshot is added under the next number. -/
def appendSnapshot (token : Json) (selected : Option String) (enabledSet : List String)
    (waits : List WaitMark) (rows : Rows) : Rows :=
  { rows with
    run := { rows.run with latestSnapshotSeq := rows.run.latestSnapshotSeq + 1 }
    snapshots := rows.snapshots ++
      [⟨rows.run.latestSnapshotSeq + 1, token, enabledSet, selected, waits⟩] }

end Rows

/-! ### History of the waits -/

/-- The numbers consumed between two tokens of a turn. -/
def newlyConsumed (before after : Json) : List Int :=
  ((consumption after).drop (consumption before).length).filterMap recordSeq

/-- The history after a synchronisation: the last wait consumed what is new. -/
def WaitMark.afterSync (before after : Json) (waits : List WaitMark) : List WaitMark :=
  match waits.getLast? with
  | none => []
  | some mark =>
    waits.dropLast ++ [{ mark with consumed := mark.consumed ++ newlyConsumed before after }]

/-- The history after a node, which may have entered a wait. -/
def WaitMark.afterNode (enteredAt : Nat) (before after : Json) (waits : List WaitMark) :
    List WaitMark :=
  if (waitCheckpoints before).length < (waitCheckpoints after).length
  then waits ++
    [⟨Runtime.acceptAfter ((wait? after).getD null), enteredAt, newlyConsumed before after⟩]
  else waits

end Psop.Runtime
