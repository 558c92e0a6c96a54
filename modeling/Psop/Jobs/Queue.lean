import Mathlib.Data.List.MinMax
import Mathlib.Data.Prod.Lex
import Psop.Runtime.Finality

/-!
The queue of durable jobs and the workers that claim them.

Every worker slot claims under an owner of its own, takes the job's advisory lock, and starts the
handler once the job is still its own. The rows change by whole transactions: a claim, a heartbeat, a
claim given back before the handler started, a failure recorded after it, the reaper's recovery of an
expired lease, the end of a handler's work, and the requeues that an input, a timeline or a judge
asks for. A finaliser that runs with an exhausted job writes domain rows, which are not here.

A job carries `starts`, the starts of its handler since its attempts were last reset. No function
reads it.
-/
namespace Psop.Jobs

open Psop.Runtime (JobStatus JobRow)
open Psop.Runtime.Rows (owns holdsLease requeuedJob restingJob)
open Psop.Runtime.System (claimedJob cancelledJob retryDelaySeconds expiredMessage)

inductive JobType where
  | compile | runtime | timelineDriver | scenarioFinalizer | rawMaterialAnalysis
  | skillRawMaterialGeneration
deriving DecidableEq, Repr

structure Job where
  id : Nat
  jobType : JobType
  createdAt : Nat
  row : JobRow
  starts : Nat := 0
deriving Repr

/-- What a worker slot does under one owner. -/
inductive Worker where
  | unused
  | claimed (job : Nat)
  | handling (job : Nat)
  | ended
deriving DecidableEq, Repr

structure Queue where
  jobs : List Job
  now : Nat
  workers : Nat → Worker

inductive Event where
  | tick (elapsed : Nat)
  | enqueue (jobType : JobType) (availableAt maxAttempts : Nat)
  | claim (owner : Nat) (types : List JobType) (leaseSeconds : Nat)
  | renew (owner leaseSeconds : Nat)
  | abandon (owner retryDelay : Nat) (message : String)
  | start (owner : Nat)
  | recordFailure (owner : Nat) (message : String)
  | recover (job : Nat)
  | finishTurn (owner : Nat) (status : JobStatus) (lastError : String) (runIsOpen unsynced : Bool)
  | finish (owner : Nat) (status : JobStatus) (lastError : String)
  | requeueInput (job : Nat)
  | ensureDriver (job availableAt : Nat)
  | ensureFinalizer (job : Nat) (availableAt : Option Nat)
  | reschedule (owner availableAt : Nat)
  | cancel (job : Nat) (reason : String)
  | crash (owner : Nat)

namespace Queue

/-! ### The rows -/

/-- The statuses a claim looks for. -/
def waits (status : JobStatus) : Bool := status == .pending || status == .retryableFailed

def isDue (types : List JobType) (now : Nat) (job : Job) : Bool :=
  decide (job.jobType ∈ types) && waits job.row.status && decide (job.row.availableAt ≤ now) &&
    decide (job.row.attemptNo < job.row.maxAttempts)

/-- The job a claim takes: the first by `available_at` and `created_at`. -/
def nextDue (types : List JobType) (now : Nat) (jobs : List Job) : Option Job :=
  (jobs.filter (isDue types now)).argmin fun job => toLex (job.row.availableAt, job.createdAt)

/-- `abandon_claim` -/
def abandonedJob (now retryDelay : Nat) (message : String) (row : JobRow) : JobRow :=
  { row with
    status := .retryableFailed, availableAt := now + retryDelay, attemptNo := row.attemptNo - 1
    workerName := none, leaseUntil := none, lastError := message }

/-- An attempt that ended without a result: another one, or none left. `_record_unhandled_failure` and
`recover_expired_lease` differ in the message. -/
def failedJob (now : Nat) (message : String) (row : JobRow) : JobRow :=
  let released := { row with lastError := message, workerName := none, leaseUntil := none }
  if row.attemptNo < row.maxAttempts then
    { released with
      status := .retryableFailed, availableAt := now + retryDelaySeconds row.attemptNo }
  else { released with status := .failed }

/-- The row that `_ensure_driver_job_pending`, `_ensure_finalizer_job_pending` and
`_reschedule_finalizer_job` write. -/
def pendingAgain (availableAt : Nat) (row : JobRow) : JobRow :=
  { row with
    status := .pending, availableAt := availableAt, attemptNo := 0, workerName := none
    leaseUntil := none, lastError := "" }

/-! ### Updates -/

def job? (id : Nat) (q : Queue) : Option Job := q.jobs.find? fun job => job.id == id

def update (id : Nat) (change : Job → Job) (q : Queue) : Queue :=
  { q with jobs := q.jobs.map fun job => if job.id = id then change job else job }

def setWorker (owner : Nat) (worker : Worker) (q : Queue) : Queue :=
  { q with workers := fun other => if other = owner then worker else q.workers other }

/-- A change of the row that leaves the attempts alone. -/
def rowOnly (change : JobRow → JobRow) (job : Job) : Job := { job with row := change job.row }

/-- A change of the row that begins a new count of attempts. -/
def reset (change : JobRow → JobRow) (job : Job) : Job := { job with row := change job.row, starts := 0 }

def started (job : Job) : Job := { job with starts := job.starts + 1 }

/-- The job of a worker slot. -/
def Worker.job? : Worker → Option Nat
  | .claimed job | .handling job => some job
  | .unused | .ended => none

/-- A write of a worker to the row it owns; a row that is no longer its own stays as it is. -/
def onOwn (owner : Nat) (change : Job → Job) (q : Queue) : Option Queue := do
  let id ← Worker.job? (q.workers owner)
  let job ← q.job? id
  if owns owner job.row then some (q.update id change) else some q

/-- The lease a handler's commit is fenced by. -/
def leased (now owner : Nat) (row : JobRow) : Bool :=
  owns owner row && row.leaseUntil.any fun deadline => decide (now < deadline)

/-- A handler's last commit, fenced by its lease: without it the handler raises instead. -/
def finishWith (owner : Nat) (change : Job → Job) (q : Queue) : Option Queue :=
  match q.workers owner with
  | .handling id => (q.job? id).map fun job =>
      if leased q.now owner job.row then (q.update id change).setWorker owner .ended else q
  | _ => none

/-- `_finish_runtime_job_turn` on the row: open, with inputs to look at, it goes back to the queue. -/
def finishedTurn (now : Nat) (status : JobStatus) (lastError : String) (runIsOpen unsynced : Bool)
    (job : Job) : Job :=
  if runIsOpen && (job.row.rerunRequested || unsynced) then reset (requeuedJob now) job
  else rowOnly (restingJob status lastError) job

/-- `_ensure_runtime_job_pending` on a job that exists. -/
def requeuedForInput (now : Nat) (job : Job) : Job :=
  if job.row.status = .running then rowOnly (fun row => { row with rerunRequested := true }) job
  else reset (requeuedJob now) job

/-- `_ensure_finalizer_job_pending` on a job that exists: a running or a claimable one stays, and is at
most moved forward. -/
def ensuredFinalizer (now : Nat) (availableAt : Option Nat) (job : Job) : Job :=
  if job.row.status = .running then job
  else if waits job.row.status && decide (job.row.attemptNo < job.row.maxAttempts) then
    match availableAt with
    | some sooner =>
      if job.row.status = .pending ∧ sooner < job.row.availableAt
      then rowOnly (fun row => { row with availableAt := sooner }) job else job
    | none => job
  else reset (pendingAgain (availableAt.getD now)) job

/-- The cancellations: a runtime job's releases its owner, a test job's does not. -/
def cancelled (reason : String) (job : Job) : Job :=
  if job.jobType = .runtime then rowOnly (cancelledJob reason) job
  else if job.row.status = .succeeded ∨ job.row.status = .failed ∨ job.row.status = .cancelled then job
  else rowOnly (fun row => { row with status := .cancelled, lastError := reason }) job

/-! ### Steps -/

/-- `claim_next_job` -/
def claim (owner : Nat) (types : List JobType) (leaseSeconds : Nat) (q : Queue) : Option Queue :=
  match q.workers owner, nextDue types q.now q.jobs with
  | .unused, some job => some ((q.update job.id (rowOnly (claimedJob q.now owner leaseSeconds))).setWorker
      owner (.claimed job.id))
  | _, _ => none

/-- `_process_job` up to the handler: it starts if the job is still the worker's. -/
def startHandler (owner : Nat) (q : Queue) : Option Queue :=
  match q.workers owner with
  | .claimed id => (q.job? id).map fun job =>
      if owns owner job.row then (q.update id started).setWorker owner (.handling id)
      else q.setWorker owner .ended
  | _ => none

/-- `recover_expired_lease` -/
def recover (id : Nat) (q : Queue) : Option Queue := do
  let job ← q.job? id
  let deadline ← job.row.leaseUntil
  if job.row.status = .running ∧ deadline ≤ q.now
  then some (q.update id (rowOnly (failedJob q.now (expiredMessage job.row)))) else none

def step (q : Queue) : Event → Option Queue
  | .tick elapsed => some { q with now := q.now + elapsed }
  | .enqueue jobType availableAt maxAttempts => some { q with jobs := q.jobs ++
      [⟨q.jobs.length, jobType, q.now, { maxAttempts := maxAttempts, availableAt := availableAt }, 0⟩] }
  | .claim owner types leaseSeconds => claim owner types leaseSeconds q
  | .renew owner leaseSeconds => onOwn owner (rowOnly fun row =>
      { row with leaseUntil := some (q.now + leaseSeconds) }) q
  | .abandon owner retryDelay message => match q.workers owner with
      | .claimed _ => (onOwn owner (rowOnly (abandonedJob q.now retryDelay message)) q).map
          (setWorker owner .ended)
      | _ => none
  | .start owner => startHandler owner q
  | .recordFailure owner message =>
      (onOwn owner (rowOnly (failedJob q.now message)) q).map (setWorker owner .ended)
  | .recover job => recover job q
  | .finishTurn owner status lastError runIsOpen unsynced =>
      if status.resting then finishWith owner (finishedTurn q.now status lastError runIsOpen unsynced) q
      else none
  | .finish owner status lastError =>
      if status.resting then finishWith owner (rowOnly (restingJob status lastError)) q else none
  | .requeueInput job => some (q.update job (requeuedForInput q.now))
  | .ensureDriver job availableAt => some (q.update job (reset (pendingAgain availableAt)))
  | .ensureFinalizer job availableAt => some (q.update job (ensuredFinalizer q.now availableAt))
  | .reschedule owner availableAt => finishWith owner (reset (pendingAgain availableAt)) q
  | .cancel job reason => some (q.update job (cancelled reason))
  | .crash owner => some (q.setWorker owner .ended)

def empty (now : Nat) : Queue := ⟨[], now, fun _ => .unused⟩

end Queue
end Psop.Jobs
