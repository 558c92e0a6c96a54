import Psop.Runs
import Psop.Runtime.Rows
import Mathlib.Algebra.Ring.Nat

/-!
One run and everything that acts on it, as a transition system over committed transactions.

The state is the committed rows, the clock, what every attempt at the runtime job is doing, and the
answers given to append requests. Each step is one transaction, placed where it holds the job and the
run lock: an append, a cancellation, a queue operation, the first transaction of a turn, or one round
of its loop up to the commit that ends it. Between its transactions an attempt keeps a token, the
snapshot number it saw and the number it expects; other transactions may come in between, a lease may
run out, and the attempt may stop at any point (`crash`). What the agent returns is chosen by the
environment.

A step is undefined where the source raises before it commits, or where its precondition fails.
-/
namespace Psop.Runtime

open Json Rows

/-- The loop of one `process_run` between two transactions. `snapshotSeq` is the number the attempt's
own copy of the run carries, `expected` the one its last lock asked for. -/
structure Turn where
  token : Json
  acceptAfter : Int
  stepsDone : Nat
  snapshotSeq : Nat
  expected : Nat
  leased : Bool
  waits : List WaitMark

inductive Attempt where
  | unused
  | claimed
  | looping (turn : Turn)
  | ended

/-- The turn of an attempt in its loop. -/
def Attempt.turn? : Attempt → Option Turn
  | .looping turn => some turn
  | .unused | .claimed | .ended => none

theorem Attempt.looping_of_turn {attempt : Attempt} {turn : Turn}
    (has : attempt.turn? = some turn) : attempt = .looping turn := by
  cases attempt with
  | looping => rw [Option.some.inj has]
  | unused | claimed | ended => cases has

structure System where
  rows : Rows
  now : Nat
  attempts : Nat → Attempt
  /-- The append requests answered so far, with the event each was answered with. -/
  answers : List (EventDraft × TerminalEvent)

/-- What a transaction of the environment brings along: fresh event ids and a trace row. -/
structure Supply where
  outputId : String := ""
  finalId : String := ""
  failureId : String := ""
  trace : TraceRef := ⟨"", 0⟩
deriving Repr

inductive Event where
  | tick (elapsed : Nat)
  | append (draft : EventDraft)
  | preflight (draft : EventDraft)
  | persist (draft : EventDraft)
  | cancel (reason : String)
  | claim (owner leaseSeconds : Nat)
  | renew (owner leaseSeconds : Nat)
  | abandon (owner retryDelay : Nat) (message : String)
  | recordFailure (owner : Nat) (message : String) (supply : Supply)
  | recover (retryDelay : Nat) (supply : Supply)
  | begin (attempt : Nat) (leased : Bool) (supply : Supply)
  | turn (attempt : Nat) (outcome : AgentOutcome) (supply : Supply)
  | crash (attempt : Nat)

namespace System

def setAttempt (attempt : Nat) (state : Attempt) (s : System) : System :=
  { s with attempts := fun other => if other = attempt then state else s.attempts other }

def withRows (rows : Rows) (s : System) : System := { s with rows := rows }

def withJob (job : JobRow) (s : System) : System :=
  { s with rows := { s.rows with job := some job } }

/-! ### Appends -/

/-- The external id a request is deduplicated by; an empty one counts as none. -/
def carriedId? (draft : EventDraft) : Option String :=
  match draft.externalEventId with
  | none => none
  | some externalId => if externalId = "" then none else some externalId

/-- The stored event a request repeats. -/
def duplicate? (draft : EventDraft) (rows : Rows) : Option TerminalEvent :=
  (carriedId? draft).bind rows.eventByExternalId?

def answer (draft : EventDraft) (event : TerminalEvent) (s : System) : System :=
  { s with answers := s.answers ++ [(draft, event)] }

/-- Only a direction spelled `input` wakes the job up. -/
def woken (now : Nat) (draft : EventDraft) (rows : Rows) : Rows :=
  if draft.direction = "input" then rows.ensureRuntimeJobPending now else rows

/-- The part of `append_terminal_event` after the duplicate check. -/
def appendNew (draft : EventDraft) (s : System) : Option System :=
  if s.rows.finished || !s.rows.sessionOpen then none
  else (s.rows.appendTerminalEvent draft).map fun (rows, event) =>
    answer draft event (s.withRows (woken s.now draft rows))

/-- `append_terminal_event` -/
def append (draft : EventDraft) (s : System) : Option System :=
  match duplicate? draft s.rows with
  | some event => some (answer draft event s)
  | none => appendNew draft s

/-- `_preflight` and `_load_duplicate` of the ingest: a repeated request is answered without a
lock. -/
def preflight (draft : EventDraft) (s : System) : Option System :=
  (duplicate? draft s.rows).map fun event => answer draft event s

/-- `_persist` of the ingest -/
def persist (draft : EventDraft) (s : System) : Option System :=
  match duplicate? draft s.rows with
  | some event => some (answer draft event s)
  | none => if s.rows.finished || !s.rows.sessionOpen then none else append draft s

/-! ### The queue -/

def cancelledRun (reason : String) (rows : Rows) : Rows :=
  { rows with
    run := { rows.run with status := .cancelled, runtimePhase := "cancelled", exitReason := reason }
    sessionOpen := false }

/-- `_append_cancel_snapshot` -/
def appendCancelSnapshot (now reason : String) (rows : Rows) : Option Rows :=
  match rows.lastSnapshot? with
  | none => some rows
  | some snapshot => (cancelToken now rows.run.id reason snapshot.token).map fun token =>
      rows.appendSnapshot token none [] snapshot.waits

def cancelledJob (reason : String) (job : JobRow) : JobRow :=
  if job.status = .succeeded ∨ job.status = .failed ∨ job.status = .cancelled then job
  else { job with
    status := .cancelled, lastError := reason, workerName := none, leaseUntil := none }

/-- `cancel_run` -/
def cancel (platform : Platform) (reason : String) (s : System) : Option System :=
  if s.rows.finished then none
  else (appendCancelSnapshot (platform.isoformat s.now) reason (cancelledRun reason s.rows)).map
    fun rows => s.withRows { rows with job := rows.job.map (cancelledJob reason) }

def claimedJob (now owner leaseSeconds : Nat) (job : JobRow) : JobRow :=
  { job with
    status := .running, attemptNo := job.attemptNo + 1, workerName := some owner
    leaseUntil := some (now + leaseSeconds) }

/-- `claim_next_job`: every attempt has an owner of its own. -/
def claim (owner leaseSeconds : Nat) (s : System) : Option System :=
  match s.attempts owner, s.rows.job with
  | .unused, some job =>
    if (job.status = .pending ∨ job.status = .retryableFailed) ∧ job.availableAt ≤ s.now ∧
        job.attemptNo < job.maxAttempts then
      some ((s.withJob (claimedJob s.now owner leaseSeconds job)).setAttempt owner .claimed)
    else none
  | _, _ => none

/-- A queue operation of an attempt on its own job: nothing happens to a job it no longer owns. -/
def onOwnJob (owner : Nat) (update : JobRow → JobRow) (s : System) : Option System :=
  match s.rows.job with
  | none => none
  | some job => if owns owner job then some (s.withJob (update job)) else none

/-- `renew_lease` -/
def renew (owner leaseSeconds : Nat) (s : System) : Option System :=
  onOwnJob owner (fun job => { job with leaseUntil := some (s.now + leaseSeconds) }) s

/-- `abandon_claim` -/
def abandon (owner retryDelay : Nat) (message : String) (s : System) : Option System :=
  onOwnJob owner (fun job => { job with
    status := .retryableFailed, availableAt := s.now + retryDelay, attemptNo := job.attemptNo - 1
    workerName := none, leaseUntil := none, lastError := message }) s

/-- `_retry_delay_seconds` -/
def retryDelaySeconds (attemptNo : Nat) : Nat := min 300 (5 * 2 ^ (attemptNo - 1))

/-- `_record_unhandled_failure` -/
def recordFailure (platform : Platform) (owner : Nat) (message : String) (supply : Supply)
    (s : System) : Option System :=
  match s.rows.job with
  | none => none
  | some job =>
    if !owns owner job then none
    else
      let released := { job with lastError := message, workerName := none, leaseUntil := none }
      if job.attemptNo < job.maxAttempts then
        some (s.withJob { released with
          status := .retryableFailed, availableAt := s.now + retryDelaySeconds job.attemptNo })
      else
        (finalizeExhaustedJob (platform.isoformat s.now) supply.failureId message supply.trace
          { s.rows with job := some { released with status := .failed } }).map s.withRows

def expiredMessage (job : JobRow) : String :=
  "worker lease expired (attempt " ++ toString job.attemptNo ++ "/" ++ toString job.maxAttempts ++ ")"

/-- `recover_expired_lease`, with the finaliser of an exhausted job in the same transaction. -/
def recover (platform : Platform) (retryDelay : Nat) (supply : Supply) (s : System) :
    Option System :=
  match s.rows.job with
  | none => none
  | some job =>
    match job.leaseUntil with
    | none => none
    | some deadline =>
      if job.status ≠ .running ∨ s.now < deadline then none
      else
        let released := { job with
          workerName := none, leaseUntil := none, lastError := expiredMessage job }
        if job.attemptNo < job.maxAttempts then
          some (s.withJob { released with
            status := .retryableFailed, availableAt := s.now + retryDelay })
        else
          (finalizeExhaustedJob (platform.isoformat s.now) supply.failureId (expiredMessage job)
            supply.trace { s.rows with job := some { released with status := .failed } }).map s.withRows

/-! ### Turns -/

/-- The owner a transaction of the attempt is fenced by. -/
def leaseOf (attempt : Nat) (leased : Bool) : Option Nat := if leased then some attempt else none

def endAttempt (attempt : Nat) (rows : Rows) (s : System) : System :=
  (s.withRows rows).setAttempt attempt .ended

/-- The recoverable exit of a turn: back to waiting, with a snapshot of what the token had become. -/
def recoverTurn (now : Nat) (stamp : String) (token : Json) (waits : List WaitMark)
    (failure : Failure) (supply : Supply) (rows : Rows) : Option Rows := do
  let (rows, event) ← rows.appendIfOpen (recoveryDraft rows supply.failureId stamp supply.trace)
  let recovered ← recoverTerminalTurnToken stamp failure.text supply.trace event token
  let rows := { rows with run := { rows.run with
    status := .waitingInput, runtimePhase := runtimePhaseFromToken recovered, exitReason := "" } }
  finishRuntimeJobTurn now recovered .succeeded ""
    (rows.appendSnapshot recovered none [] waits)

/-- The failing exit of a turn. -/
def failTurn (now : Nat) (stamp : String) (token : Json) (failure : Failure) (supply : Supply)
    (rows : Rows) : Option Rows := do
  let rows := { rows with run := { rows.run with
    status := .failed, runtimePhase := "failed", exitReason := failure.text } }
  let rows ← finishRuntimeJobTurn now token .failed failure.text rows
  let (rows, _) ← rows.appendIfOpen (failureDraft rows supply.failureId stamp failure.text supply.trace)
  some { rows with sessionOpen := false }

/-- The `except` clause of `process_run`. A recoverable failure asks for the snapshot number of the
last lock; a turn that has committed since then gives up there. -/
def handleFailure (platform : Platform) (attempt : Nat) (leased : Bool) (token : Json)
    (waits : List WaitMark) (expected : Nat) (failure : Failure) (supply : Supply) (rows : Rows)
    (s : System) : Option System :=
  let stamp := platform.isoformat s.now
  if isRecoverable token then
    if !rows.holdsLease s.now (leaseOf attempt leased) || rows.run.latestSnapshotSeq != expected
    then some (s.setAttempt attempt .ended)
    else (recoverTurn s.now stamp token waits failure supply rows).map fun rows =>
      endAttempt attempt rows s
  else if failure = .timeout then some (s.setAttempt attempt .ended)
  else if !rows.holdsLease s.now (leaseOf attempt leased) then some (s.setAttempt attempt .ended)
  else (failTurn s.now stamp token failure supply rows).map fun rows => endAttempt attempt rows s

/-- The waiting exits of a turn. -/
def waitTurn (now : Nat) (token : Json) (rows : Rows) : Option Rows :=
  finishRuntimeJobTurn now token .succeeded "" { rows with run := { rows.run with
    status := .waitingInput, runtimePhase := runtimePhaseFromToken token } }

/-- `process_run` on a finished run only settles its job. -/
def settleFinished (rows : Rows) : Rows :=
  { rows with job := rows.job.map fun job => { job with
      status := match rows.run.status with
        | .failed => .failed
        | .cancelled => .cancelled
        | _ => .succeeded
      workerName := none, leaseUntil := none
      lastError := if rows.run.status = .failed then rows.run.exitReason else job.lastError } }

/-- The job of a turn that starts. -/
def startedJob (job : JobRow) : JobRow :=
  { job with
    attemptNo := if job.status = .running then job.attemptNo else job.attemptNo + 1
    status := .running }

/-- The rows of a turn that starts. -/
def startedRows (rows : Rows) : Rows := { rows with job := rows.job.map startedJob }

/-- The turn enters its loop with the synchronised token. -/
def loopTurn (platform : Platform) (snapshot : Snapshot) (acceptAfterSeq : Int) (synced : Json)
    (expected : Nat) (leased : Bool) : Turn :=
  ⟨synced, acceptAfterSeq, 0, expected, expected, leased,
    WaitMark.afterSync (compactRuntimeToken platform.sha256 snapshot.token) synced snapshot.waits⟩

def runningRows (synced : Json) (rows : Rows) : Rows :=
  { rows with run := { rows.run with
      status := .running
      runtimePhase := (synced.field "phase").strOr (initialPhase rows.artifact) } }

/-- The first transaction of `process_run`, from the job lock to the commit before the loop. -/
def beginTurn (platform : Platform) (attempt : Nat) (leased : Bool) (supply : Supply) (s : System) :
    Option System :=
  if !s.rows.holdsLease s.now (leaseOf attempt leased) then some (s.setAttempt attempt .ended)
  else if s.rows.finished then some (endAttempt attempt (settleFinished s.rows) s)
  else match s.rows.lastSnapshot? with
    | none => none
    | some snapshot =>
      let expected := s.rows.run.latestSnapshotSeq
      let started := startedRows s.rows
      let token := compactRuntimeToken platform.sha256 snapshot.token
      let fails :=
        handleFailure platform attempt leased token snapshot.waits expected typeError supply started s
      match cursor? token with
      | none => fails
      | some acceptAfterSeq =>
        match syncTerminalEvents (platform.isoformat s.now) started.events token with
        | none => fails
        | some synced =>
          if hasStatus synced "waiting" then
            (waitTurn s.now synced started).map fun rows => endAttempt attempt rows s
          else some ((s.withRows (runningRows synced started)).setAttempt attempt
            (.looping (loopTurn platform snapshot acceptAfterSeq synced expected leased)))

/-- `int(artifact_payload.get("policies", {}).get("max_steps") or 16)` -/
def maxSteps? (artifact : Json) : Option Int :=
  match artifact.field? "policies" with
  | none => some 16
  | some (obj policies) => (((lookup "max_steps" policies).getD null).or (num 16)).toInt?
  | some _ => none

def succeedRun (now : Nat) (token : Json) (rows : Rows) : Option Rows :=
  finishRuntimeJobTurn now token .succeeded "" { rows with
    run := { rows.run with
      status := .succeeded, runtimePhase := "completed", exitReason := "completed"
      finalOutput := (token.getPath "outputs.final_response").strOr }
    sessionOpen := false }

def abortRun (now : Nat) (token : Json) (rows : Rows) : Option Rows :=
  let final := (token.getPath "outputs.final_response").strOr
  finishRuntimeJobTurn now token .succeeded "" { rows with
    run := { rows.run with
      status := .aborted, runtimePhase := "aborted"
      exitReason := truncateExitReason (if final = "" then "aborted" else final)
      finalOutput := final }
    sessionOpen := false }

/-- The final answer of a terminal node is appended after the snapshot. -/
def finalDraft (supply : Supply) (stamp : String) (node observation : Json) : EventDraft :=
  outputDraft supply.finalId stamp "text/plain" (observation.field "final_response").toStr none
    (obj [("kind", str "runtime"), ("node_id", str (node.field "id").toStr)])

/-- `_append_runtime_step` -/
def appendRuntimeStep (supply : Supply) (stamp : String) (node observation token : Json)
    (enabledAfter : List String) (waits : List WaitMark) (rows : Rows) : Option Rows :=
  let rows := rows.appendSnapshot token (some (node.field "id").toStr) enabledAfter waits
  let rows := { rows with run := { rows.run with
    runtimePhase := (token.field "phase").strOr (node.field "id").toStr } }
  if (node.field "kind").str? = some "terminal" ∧ (observation.field "final_response").truthy then
    (rows.appendTerminalEvent (finalDraft supply stamp node observation)).map Prod.fst
  else some rows

def messageDraft (supply : Supply) (stamp : String) (node : Json) (output : TerminalOutput) :
    EventDraft :=
  outputDraft supply.outputId stamp output.mimeType output.message none
    (obj [("kind", str "runtime"), ("node_id", str (node.field "id").toStr),
      ("agent_key", str "psop.runner")])

/-- The rows after an interaction's output, if it has one and the session is open. -/
def appendOutput (supply : Supply) (stamp : String) (node : Json) (output : Option TerminalOutput)
    (rows : Rows) : Option Rows :=
  match output with
  | none => some rows
  | some output => (rows.appendIfOpen (messageDraft supply stamp node output)).map Prod.fst

/-- The execution of a node, before its transaction locks anything. -/
def executed (platform : Platform) (s : System) (turn : Turn) (node : Json) (outcome : AgentOutcome) :
    Except Failure (Json × Json) :=
  executeNode (platform.isoformat s.now) s.rows.run.id
    ("runtime://runs/" ++ s.rows.run.id ++ "/snapshots/" ++ toString turn.snapshotSeq ++
      "/projection/" ++ (node.field "id").toStr)
    s.rows.artifact node turn.token outcome

/-- The interaction of a node within its transaction. -/
def interacted (platform : Platform) (s : System) (turn : Turn) (node observation merged : Json) :
    Applied :=
  applyNodeInteraction (platform.isoformat s.now) s.rows.run.id s.rows.run.latestTerminalSeq
    s.rows.events s.rows.artifact node observation turn.acceptAfter merged

def enabledAfter (artifact token : Json) (enteredWait : Bool) : List String :=
  if enteredWait then [] else (enabledNodes artifact token).map fun node => (node.field "id").toStr

/-- The loop goes on with the token just stored. -/
def nextTurn (turn : Turn) (token : Json) (waits : List WaitMark) : Turn :=
  { turn with
    token := token, stepsDone := turn.stepsDone + 1, snapshotSeq := turn.snapshotSeq + 1
    expected := turn.snapshotSeq, waits := waits }

/-- The transaction of an executed node: merge, interaction, snapshot and commit. -/
def commitNode (platform : Platform) (attempt : Nat) (turn : Turn) (node observation token : Json)
    (supply : Supply) (s : System) : Option System :=
  let stamp := platform.isoformat s.now
  let fails := fun token waits rows failure =>
    handleFailure platform attempt turn.leased token waits turn.snapshotSeq failure supply rows s
  match mergeObservation node observation token with
  | none => fails token turn.waits s.rows typeError
  | some (merged, observation) =>
    let applied := interacted platform s turn node observation merged
    let waits := WaitMark.afterNode s.rows.run.latestTerminalSeq merged applied.token turn.waits
    (appendOutput supply stamp node applied.output s.rows).bind fun rows =>
      match applied.outcome with
      | .error failure => fails applied.token waits rows failure
      | .ok enteredWait =>
        (appendRuntimeStep supply stamp node observation applied.token
          (enabledAfter rows.artifact applied.token enteredWait) waits rows).bind fun rows =>
            if enteredWait then (waitTurn s.now applied.token rows).map fun rows =>
              endAttempt attempt rows s
            else some ((s.withRows rows).setAttempt attempt
              (.looping (nextTurn turn applied.token waits)))

/-- A node runs: its agent works without a lock, then the attempt locks and commits, unless it lost
its lease or the snapshot it worked on. -/
def runNode (platform : Platform) (attempt : Nat) (turn : Turn) (node : Json)
    (outcome : AgentOutcome) (supply : Supply) (s : System) : Option System :=
  match executed platform s turn node outcome with
  | .error failure =>
    handleFailure platform attempt turn.leased turn.token turn.waits turn.snapshotSeq failure supply
      s.rows s
  | .ok (observation, token) =>
    if !s.rows.holdsLease s.now (leaseOf attempt turn.leased) ||
        s.rows.run.latestSnapshotSeq != turn.snapshotSeq
    then some (s.setAttempt attempt .ended)
    else commitNode platform attempt turn node observation token supply s

/-- The exits that commit the token's end: they are fenced by the lease alone. -/
def exitTurn (attempt : Nat) (leased : Bool) (exit : Rows → Option Rows) (s : System) :
    Option System :=
  if !s.rows.holdsLease s.now (leaseOf attempt leased) then some (s.setAttempt attempt .ended)
  else (exit s.rows).map fun rows => endAttempt attempt rows s

/-- One round of the loop of `process_run`. -/
def turnStep (platform : Platform) (attempt : Nat) (turn : Turn) (outcome : AgentOutcome)
    (supply : Supply) (s : System) : Option System :=
  let artifact := s.rows.artifact
  let fails := fun failure =>
    handleFailure platform attempt turn.leased turn.token turn.waits turn.expected failure supply
      s.rows s
  match maxSteps? artifact with
  | none => fails typeError
  | some maxSteps =>
    if maxSteps ≤ turn.stepsDone then
      fails (.error ("Runtime exceeded max_steps=" ++ toString maxSteps ++ "."))
    else if haltAborted artifact turn.token then
      exitTurn attempt turn.leased (abortRun s.now turn.token) s
    else if haltSuccess artifact turn.token then
      exitTurn attempt turn.leased (succeedRun s.now turn.token) s
    else
      match enabledNodes artifact turn.token with
      | [] =>
        if haltWait artifact turn.token then
          exitTurn attempt turn.leased (waitTurn s.now turn.token) s
        else fails (.error "Runtime deadlock: no enabled nodes and no wait condition matched.")
      | enabled =>
        match selectNode enabled with
        | none => fails typeError
        | some node => runNode platform attempt turn node outcome supply s

/-! ### Steps -/

def mayBegin (leased : Bool) : Attempt → Bool
  | .claimed => leased
  | .unused => !leased
  | _ => false

def step (platform : Platform) (s : System) : Event → Option System
  | .tick elapsed => some { s with now := s.now + elapsed }
  | .append draft => append draft s
  | .preflight draft => preflight draft s
  | .persist draft => persist draft s
  | .cancel reason => cancel platform reason s
  | .claim owner leaseSeconds => claim owner leaseSeconds s
  | .renew owner leaseSeconds => renew owner leaseSeconds s
  | .abandon owner retryDelay message => abandon owner retryDelay message s
  | .recordFailure owner message supply => recordFailure platform owner message supply s
  | .recover retryDelay supply => recover platform retryDelay supply s
  | .begin attempt leased supply =>
    if mayBegin leased (s.attempts attempt) then beginTurn platform attempt leased supply s else none
  | .turn attempt outcome supply =>
    match s.attempts attempt with
    | .looping turn => turnStep platform attempt turn outcome supply s
    | _ => none
  | .crash attempt => some (s.setAttempt attempt .ended)

/-! ### Starting states -/

/-- `create_invocation`: a waiting run with its first snapshot and a pending job. -/
def created (artifact : Json) (runId : String) (maxAttempts now : Nat) : System :=
  let token := buildInitialToken (obj []) artifact
  { rows :=
      { artifact := artifact
        run := { id := runId, status := .waitingRuntime, runtimePhase := initialPhase artifact }
        job := some { maxAttempts := maxAttempts, availableAt := now }
        sessionOpen := true
        snapshots := [⟨0, token, (enabledNodes artifact token).map fun node =>
          (node.field "id").toStr, none, []⟩]
        events := []
        jobMaxAttempts := maxAttempts }
    now := now
    attempts := fun _ => .unused
    answers := [] }

/-- The rows a fork creates get ids and bindings of their own. -/
structure ForkIds where
  eventId : Nat → String
  partId : Nat → Int → String
  bindingId : Direction → Json

def forkDraft (ids : ForkIds) (sourceRunId runId : String) (event : TerminalEvent) : EventDraft :=
  { id := ids.eventId event.seqNo
    direction := event.direction.name
    eventKind := event.eventKind
    mimeType := event.mimeType
    payloadInline := event.payloadInline
    artifactObjectId := event.artifactObjectId
    bindingId := ids.bindingId event.direction
    externalEventId := some ("fork:" ++ runId ++ ":terminal:" ++ toString event.seqNo)
    sourceRef := obj (setKey "forked_from" (obj [("run_id", str sourceRunId),
      ("terminal_event_id", str event.id), ("seq_no", num event.seqNo)]) event.sourceRef.fields)
    occurredAt := event.occurredAt
    parts := event.parts.map fun part => { part with id := ids.partId event.seqNo part.orderIndex } }

def copyTerminalEvent (ids : ForkIds) (sourceRunId : String) (rows : Rows) (event : TerminalEvent) :
    Option Rows :=
  (rows.appendTerminalEvent (forkDraft ids sourceRunId rows.run.id event)).map Prod.fst

/-- The token of a fork: the source's, with the copied events and the cursor behind them. -/
def forkToken (events : List TerminalEvent) (latestTerminalSeq : Nat) (token : Json) :
    Option Json := do
  let token ← token.put? ["terminal", "events"] (arr (events.map TerminalEvent.tokenPayload))
  let token ← token.put? ["terminal", "latest_seq"] (num latestTerminalSeq)
  token.put? ["metadata", "terminal_cursor"] (num latestTerminalSeq)

/-- `fork_invocation_from_snapshot`: a run that continues from a snapshot of another one. -/
def forked (platform : Platform) (ids : ForkIds) (runId : String) (source : Rows)
    (snapshotSeq : Nat) (terminalSeq : Int) (maxAttempts now : Nat) : Option System := do
  let snapshot ← source.snapshots.find? fun snapshot => snapshot.seqNo == snapshotSeq
  let token := compactRuntimeToken platform.sha256 snapshot.token
  let waiting := hasStatus token "waiting"
  let empty : Rows :=
    { artifact := source.artifact
      run := { id := runId, status := if waiting then .waitingInput else .queued
               runtimePhase := runtimePhaseFromToken token }
      job := if waiting then none else some { maxAttempts := maxAttempts, availableAt := now + 2 }
      sessionOpen := true
      snapshots := []
      events := []
      jobMaxAttempts := maxAttempts }
  let copied ← (source.events.filter fun event => decide ((event.seqNo : Int) ≤ terminalSeq)).foldlM
    (copyTerminalEvent ids source.run.id) empty
  let token ← forkToken copied.events copied.run.latestTerminalSeq token
  some
    { rows := { copied with snapshots :=
        [⟨0, token, (enabledNodes source.artifact token).map fun node => (node.field "id").toStr,
          none, []⟩] }
      now := now
      attempts := fun _ => .unused
      answers := [] }

/-- Every state a run can start in. -/
inductive Start (platform : Platform) : System → Prop
  | created (artifact : Json) (runId : String) (maxAttempts now : Nat) :
      Start platform (created artifact runId maxAttempts now)
  | forked {ids : ForkIds} {runId : String} {source : Rows} {snapshotSeq : Nat} {terminalSeq : Int}
      {maxAttempts now : Nat} {s : System}
      (forks : System.forked platform ids runId source snapshotSeq terminalSeq maxAttempts now =
        some s) : Start platform s

end System
end Psop.Runtime
