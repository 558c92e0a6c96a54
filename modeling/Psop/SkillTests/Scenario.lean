import Psop.Jobs.Held
import Psop.Runs
import Psop.Runtime.Rows

/-!
A scenario run and its two jobs.

The timeline driver sends the inputs of the timeline to the runtime run, one transaction each, and hands
the scenario run to the finaliser job in the transaction that completes the timeline; its job is
settled in another one. The finaliser judges and closes the scenario run. Requests bring the status in
line with that of the runtime run, or cancel both. Every session works on the row as it read it.

What the judge finds and when an input is due is left to the environment. An operation is undefined
where the source raises.
-/
namespace Psop.SkillTests

open Psop.Jobs (Held written)
open Psop.Runtime (RunStatus JobStatus)

inductive ScenarioStatus where
  | pending | queued | running | waitingInput | passed | failed | cancelled
deriving DecidableEq, Repr

/-- `TERMINAL_SCENARIO_RUN_STATUSES` -/
def ScenarioStatus.terminal : ScenarioStatus → Bool
  | passed | failed | cancelled => true
  | pending | queued | running | waitingInput => false

inductive DriverStatus where
  | pending | waitingTime | completed | failed | cancelled
deriving DecidableEq, Repr

/-- `driver_status in {"completed", "failed", "cancelled"}` -/
def DriverStatus.final : DriverStatus → Bool
  | completed | failed | cancelled => true
  | pending | waitingTime => false

structure ScenarioRun where
  status : ScenarioStatus := .running
  driverStatus : DriverStatus := .pending
  driverCursor : Nat := 0
deriving DecidableEq, Repr

/-- A job with the attempt that has its lease. -/
structure Leased where
  held : Held
  holder : Option Nat := none
deriving DecidableEq, Repr

/-- `held` is the row as the session read it or last wrote it, `now` as it has it. -/
inductive DriverStage where
  | claimed
  | loaded (held now : ScenarioRun) (runtime : RunStatus)
  | sending (held now : ScenarioRun) (runtime : RunStatus) (sentAny : Bool)
  /-- The handler has its result, and the job is still to be settled. -/
  | settling (now : ScenarioRun)
  | over
deriving DecidableEq, Repr

inductive FinalizerStage where
  | claimed
  | loaded (held : ScenarioRun)
  | judging
  | judged (held : ScenarioRun)
  | over
deriving DecidableEq, Repr

/-- A request in flight. -/
inductive RequestStage where
  | syncing (held : ScenarioRun) (runtime : RunStatus)
  | cancelling (held : ScenarioRun) (runtime : RunStatus)
  /-- The runtime run is cancelled. -/
  | closing (held : ScenarioRun)
  | done
deriving DecidableEq, Repr

structure Scenario where
  run : ScenarioRun := {}
  runtime : RunStatus := .queued
  /-- The inputs of the timeline, and how many of them the runtime run has. -/
  inputs : Nat
  appended : Nat := 0
  runtimeJobMaxAttempts : Nat
  driver : Leased
  finalizer : Option Leased := none
  drivers : List DriverStage := []
  finalizers : List FinalizerStage := []
  requests : List RequestStage := []

namespace Scenario

def setDriver (k : Nat) (stage : DriverStage) (s : Scenario) : Scenario :=
  { s with drivers := s.drivers.set k stage }

def setFinalizer (k : Nat) (stage : FinalizerStage) (s : Scenario) : Scenario :=
  { s with finalizers := s.finalizers.set k stage }

def setRequest (r : Nat) (stage : RequestStage) (s : Scenario) : Scenario :=
  { s with requests := s.requests.set r stage }

/-- A session that read `held` commits the row as `now`. -/
def flush (held now : ScenarioRun) (s : Scenario) : Scenario :=
  { s with run :=
    { status := written held.status now.status s.run.status
      driverStatus := written held.driverStatus now.driverStatus s.run.driverStatus
      driverCursor := written held.driverCursor now.driverCursor s.run.driverCursor } }

end Scenario

/-- `runtime_run.status if runtime_run.status in OPEN_SCENARIO_RUN_STATUSES else "running"` -/
def openStatus : RunStatus → ScenarioStatus
  | .queued => .queued
  | .waitingInput => .waitingInput
  | _ => .running

/-- `_sync_scenario_run_from_runtime` -/
def syncScenarioRun (runtime : RunStatus) (run : ScenarioRun) : ScenarioRun :=
  if run.status.terminal then run
  else if runtime = .cancelled then { run with status := .cancelled, driverStatus := .cancelled }
  else if runtime.finished ∧ run.driverStatus = .completed then { run with status := .running }
  else { run with status := openStatus runtime }

/-- The runtime run ended before its inputs were sent. -/
def endedEarly (run : ScenarioRun) : ScenarioRun :=
  { run with status := .failed, driverStatus := .failed }

/-- `_ensure_finalizer_job_pending` -/
def ensureFinalizer (s : Scenario) : Scenario :=
  { s with finalizer := match s.finalizer with
    | none => some { held := { maxAttempts := s.runtimeJobMaxAttempts } }
    | some job =>
      if job.held.status = .running ∨ Jobs.Queue.waits job.held.status ∧
          job.held.attemptNo < job.held.maxAttempts then some job
      else some ⟨job.held.again, none⟩ }

/-! ### The timeline driver -/

def claimDriver (s : Scenario) : Option Scenario :=
  s.driver.held.claim.map fun held =>
    { s with driver := ⟨held, some s.drivers.length⟩, drivers := s.drivers ++ [.claimed] }

/-- The last transaction of `process_driver_job`. -/
def settledDriver (driverStatus : DriverStatus) (held : Held) : Held :=
  match driverStatus with
  | .completed => held.settle .succeeded
  | .failed => held.settle .failed
  | .cancelled => held.settle .cancelled
  | .pending | .waitingTime => held.again

/-- When an attempt looks at the input under the cursor, it is due, or becomes due before the attempt
has looked again, or is still ahead. -/
inductive Due where
  | due | arrived | ahead
deriving DecidableEq, Repr

/-- `process_driver_job` up to its next commit, or to the next input. -/
def drive (k : Nat) (look : Due) (s : Scenario) : DriverStage → Option Scenario
  | .claimed => some (s.setDriver k (.loaded s.run (syncScenarioRun s.runtime s.run) s.runtime))
  | .loaded held now runtime =>
    if now.status = .cancelled ∨ now.driverStatus = .cancelled then
      some ((s.flush held now).setDriver k (.settling now))
    else if runtime.finished ∧ now.driverCursor < s.inputs then
      some ((s.flush held (endedEarly now)).setDriver k (.settling (endedEarly now)))
    else some (s.setDriver k (.sending held now runtime false))
  | .sending held now runtime sentAny =>
    if s.inputs ≤ now.driverCursor then
      let now := { now with driverStatus := .completed }
      let now := if sentAny then syncScenarioRun runtime now else now
      some ((ensureFinalizer (s.flush held now)).setDriver k (.settling now))
    else if look = .due then
      let next := { now with driverCursor := now.driverCursor + 1 }
      -- an input that was appended before is answered without a commit
      if now.driverCursor < s.appended then some (s.setDriver k (.sending held next s.runtime true))
      else if s.runtime.finished then none
      else some ({ s.flush held now with appended := s.appended + 1 }.setDriver k
        (.sending now next s.runtime true))
    else
      let now := if sentAny then syncScenarioRun runtime now else now
      if sentAny ∧ runtime.finished then
        some ((s.flush held (endedEarly now)).setDriver k (.settling (endedEarly now)))
      else if sentAny ∧ look = .arrived then
        some (s.setDriver k (.sending held now runtime sentAny))
      else
        some ({ s.flush held { now with driverStatus := .waitingTime } with
          driver := ⟨s.driver.held.again, none⟩ }.setDriver k .over)
  | .settling now =>
    some ({ s with driver := ⟨settledDriver now.driverStatus s.driver.held, none⟩ }.setDriver k .over)
  | .over => none

/-- A step of a driver's attempt, which raises without the lease. -/
def stepDriver (k : Nat) (look : Due) (s : Scenario) : Option Scenario :=
  s.drivers[k]?.bind fun stage =>
    if stage = .over then none
    else if s.driver.holder = some k then drive k look s stage else some (s.setDriver k .over)

/-- `finalize_exhausted_timeline_driver_job` -/
def finalizeExhaustedTimelineDriver (run : ScenarioRun) : ScenarioRun :=
  if run.driverStatus.final then run else { run with status := .failed, driverStatus := .failed }

def dropDriver (s : Scenario) : Option Scenario :=
  if s.driver.held.status ≠ .running then none
  else some { s with
    run := if s.driver.held.exhausted then finalizeExhaustedTimelineDriver s.run else s.run
    driver := ⟨s.driver.held.drop, none⟩ }

/-! ### The finaliser -/

def claimFinalizer (s : Scenario) : Option Scenario :=
  s.finalizer.bind fun job => job.held.claim.map fun held =>
    { s with finalizer := some ⟨held, some s.finalizers.length⟩, finalizers := s.finalizers ++ [.claimed] }

/-- What a transaction of `process_finalizer_job` comes to. -/
inductive Verdict where
  | judge
  | finalize (passed : Bool)
  | reschedule
deriving DecidableEq, Repr

/-- `_finish_finalizer_job` -/
def finishFinalizer (k : Nat) (status : ScenarioStatus) (job : Leased) (s : Scenario) : Scenario :=
  let outcome : JobStatus := if status = .cancelled then .cancelled else .succeeded
  { s with finalizer := some ⟨job.held.settle outcome, none⟩ }.setFinalizer k .over

/-- The end of a transaction of `process_finalizer_job` on an open scenario run. -/
def conclude (k : Nat) (held : ScenarioRun) (verdict : Verdict) (job : Leased) (s : Scenario) :
    Option Scenario :=
  match verdict with
  | .judge => some (s.setFinalizer k .judging)
  | .finalize passed =>
    if s.runtime.finished ∧ (passed → s.runtime = .succeeded) then
      let status : ScenarioStatus := if passed then .passed else .failed
      some (finishFinalizer k status job (s.flush held { held with status := status }))
    else none
  | .reschedule => some ({ s with finalizer := some ⟨job.held.again, none⟩ }.setFinalizer k .over)

/-- `process_finalizer_job` up to its next commit; the row is read afresh after the call of the
judge. -/
def finalize (k : Nat) (verdict : Verdict) (job : Leased) (s : Scenario) :
    FinalizerStage → Option Scenario
  | .claimed => some (s.setFinalizer k (.loaded s.run))
  | .loaded held =>
    if held.status.terminal then some (finishFinalizer k held.status job s)
    else if s.runtime = .cancelled then
      some (finishFinalizer k .cancelled job (s.flush held { held with status := .cancelled }))
    else conclude k held verdict job s
  | .judging => some (s.setFinalizer k (.judged s.run))
  | .judged held =>
    if held.status.terminal then some (finishFinalizer k held.status job s)
    else if verdict = .judge then none
    else conclude k held verdict job s
  | .over => none

def stepFinalizer (k : Nat) (verdict : Verdict) (s : Scenario) : Option Scenario :=
  s.finalizer.bind fun job => s.finalizers[k]?.bind fun stage =>
    if stage = .over then none
    else if job.holder = some k then finalize k verdict job s stage
    else some (s.setFinalizer k .over)

/-- `finalize_exhausted_scenario_finalizer_job` -/
def finalizeExhaustedScenarioFinalizer (run : ScenarioRun) : ScenarioRun :=
  if run.status.terminal then run else { run with status := .failed }

def dropFinalizer (s : Scenario) : Option Scenario :=
  s.finalizer.bind fun job =>
    if job.held.status ≠ .running then none
    else some { s with
      run := if job.held.exhausted then finalizeExhaustedScenarioFinalizer s.run else s.run
      finalizer := some ⟨job.held.drop, none⟩ }

/-! ### Requests -/

def cancelLeased (job : Leased) : Leased := ⟨job.held.cancel, none⟩

/-- `_cancel_driver_job` and `_cancel_finalizer_job` -/
def cancelJobs (s : Scenario) : Scenario :=
  { s with driver := cancelLeased s.driver, finalizer := s.finalizer.map cancelLeased }

/-- A request up to its next commit. -/
def answerRequest (r : Nat) (s : Scenario) : RequestStage → Option Scenario
  | .syncing held runtime => some ((s.flush held (syncScenarioRun runtime held)).setRequest r .done)
  | .cancelling held runtime =>
    let now := syncScenarioRun runtime held
    if now.status = .cancelled then some (cancelJobs ((s.flush held now).setRequest r .done))
    else if now.status.terminal ∨ s.runtime.finished ∧ s.runtime ≠ .cancelled then none
    else some ({ s.flush held now with runtime := .cancelled }.setRequest r (.closing now))
  | .closing held => some (cancelJobs ((s.flush held
      { held with status := .cancelled, driverStatus := .cancelled }).setRequest r .done))
  | .done => none

/-- `request_evaluation` -/
def requestEvaluation (s : Scenario) : Scenario :=
  if !s.run.status.terminal ∧ s.run.driverStatus = .completed then ensureFinalizer s else s

/-! ### Steps -/

inductive ScenarioEvent where
  /-- The runtime run goes on by itself. -/
  | runtime (status : RunStatus)
  | claimDriver
  | driver (attempt : Nat) (look : Due)
  | dropDriver
  | claimFinalizer
  | finalizer (attempt : Nat) (verdict : Verdict)
  | dropFinalizer
  | openSync
  | openCancel
  | request (request : Nat)
  | requestEvaluation
deriving DecidableEq, Repr

def Scenario.step (s : Scenario) : ScenarioEvent → Option Scenario
  | .runtime status => if s.runtime.finished then none else some { s with runtime := status }
  | .claimDriver => SkillTests.claimDriver s
  | .driver k look => stepDriver k look s
  | .dropDriver => SkillTests.dropDriver s
  | .claimFinalizer => SkillTests.claimFinalizer s
  | .finalizer k verdict => stepFinalizer k verdict s
  | .dropFinalizer => SkillTests.dropFinalizer s
  | .openSync => some { s with requests := s.requests ++ [.syncing s.run s.runtime] }
  | .openCancel => some { s with requests := s.requests ++ [.cancelling s.run s.runtime] }
  | .request r => s.requests[r]?.bind (answerRequest r s)
  | .requestEvaluation => some (SkillTests.requestEvaluation s)

/-- A scenario run that was just started. -/
def Scenario.started (inputs runtimeJobMaxAttempts : Nat) : Scenario where
  inputs := inputs
  runtimeJobMaxAttempts := runtimeJobMaxAttempts
  driver := { held := { maxAttempts := runtimeJobMaxAttempts } }

end Psop.SkillTests
