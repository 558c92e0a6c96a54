import Psop.Jobs.Held
import Psop.Runs

/-!
A raw material and its analyses.

An upload stores the material in one transaction and queues its first analysis in another;
`analyze_raw_material` queues further ones, `delete_raw_material` archives the material. The job of an
analysis writes both statuses at its start and at its end, its finaliser where its attempts are
exhausted.

`material_lifecycle` says when the three stay in step: no write of a material's status finds it
archived, and no analysis is queued beside one that is pending or running. Between the two transactions
of its upload a material is in processing without an analysis.
-/
namespace Psop.Skills

open Psop.Jobs (Held written)

inductive MaterialStatus where
  | processing | ready | failed | archived
deriving DecidableEq, Repr

inductive AnalysisStatus where
  | pending | running | ready | failed
deriving DecidableEq, Repr

/-- `status in {"pending", "running"}` -/
def AnalysisStatus.active : AnalysisStatus → Bool
  | pending | running => true
  | ready | failed => false

/-- What comes of an analysis. -/
inductive AnalysisOutcome where
  | ready | failed
deriving DecidableEq, Repr

namespace AnalysisOutcome

def analysis : AnalysisOutcome → AnalysisStatus
  | ready => .ready
  | failed => .failed

def material : AnalysisOutcome → MaterialStatus
  | ready => .ready
  | failed => .failed

def job : AnalysisOutcome → Psop.Runtime.JobStatus
  | ready => .succeeded
  | failed => .failed

end AnalysisOutcome

/-- An analysis with its job; `holder` is the attempt that has the lease. -/
structure Analysis where
  status : AnalysisStatus := .pending
  held : Held
  holder : Option Nat := none
deriving DecidableEq, Repr

/-- How far `upload_raw_material` has come after its first transaction. -/
inductive UploadStage where
  | stored | inserting | done
deriving DecidableEq, Repr

inductive AnalyzeStage where
  | checking | queueing | inserting | done
deriving DecidableEq, Repr

/-- An `analyze_raw_material` in flight, with the status of the material its session holds. -/
structure AnalyzeRequest where
  held : MaterialStatus
  stage : AnalyzeStage
deriving DecidableEq, Repr

inductive HandlerStage where
  | claimed
  /-- The statuses of analysis and material its session holds. -/
  | loaded (analysis : AnalysisStatus) (material : MaterialStatus)
  | started
  | over
deriving DecidableEq, Repr

/-- An attempt of the job of an analysis. -/
structure AnalysisAttempt where
  analysis : Nat
  stage : HandlerStage
deriving DecidableEq, Repr

/-- One material with everything that is about it. -/
structure Material where
  status : MaterialStatus
  upload : UploadStage
  analyses : List Analysis := []
  requests : List AnalyzeRequest := []
  attempts : List AnalysisAttempt := []
deriving Repr

namespace Material

/-- The first transaction of `upload_raw_material`. -/
def uploaded : Material := { status := .processing, upload := .stored }

/-- `get_latest_raw_material_analysis` -/
def latestAnalysis (s : Material) : Option Analysis := s.analyses.getLast?

def setRequest (r : Nat) (stage : AnalyzeStage) (s : Material) : Material :=
  { s with requests := s.requests.modify r fun request => { request with stage := stage } }

def setAnalysis (a : Nat) (analysis : Analysis) (s : Material) : Material :=
  { s with analyses := s.analyses.set a analysis }

def setAttempt (k : Nat) (stage : HandlerStage) (s : Material) : Material :=
  { s with attempts := s.attempts.modify k fun attempt => { attempt with stage := stage } }

end Material

/-! ### Requests -/

/-- Whether `_queue_raw_material_analysis` returns the analysis there is. -/
def keepsExisting (force : Bool) (existing : Option Analysis) : Bool :=
  existing.any fun analysis => analysis.status.active || (!force && analysis.status == .ready)

/-- The transaction of `_queue_raw_material_analysis`. -/
def insertAnalysis (held : MaterialStatus) (maxAttempts : Nat) (s : Material) : Material :=
  { s with
    analyses := s.analyses ++ [{ held := { maxAttempts := maxAttempts } }]
    status := written held .processing s.status }

/-- `upload_raw_material` after its first transaction: it looks for an analysis, and inserts one. -/
def queueUpload (maxAttempts : Nat) (s : Material) : Option Material :=
  match s.upload with
  | .stored =>
    some { s with upload := if keepsExisting false s.latestAnalysis then .done else .inserting }
  | .inserting => some { insertAnalysis .processing maxAttempts s with upload := .done }
  | .done => none

/-- `delete_raw_material` -/
def deleteMaterial (s : Material) : Option Material :=
  if s.status = .archived then none else some { s with status := .archived }

/-- `analyze_raw_material` loads the material. -/
def analyze (s : Material) : Option Material :=
  if s.status = .archived then none
  else some { s with requests := s.requests ++ [⟨s.status, .checking⟩] }

/-- The rest of `analyze_raw_material`: its own check, that of `_queue_raw_material_analysis`, and the
transaction of the latter. -/
def queueAnalyze (r maxAttempts : Nat) (s : Material) : Option Material :=
  match s.requests[r]? with
  | some ⟨held, .checking⟩ =>
    let busy := held == .processing || s.latestAnalysis.any fun analysis => analysis.status.active
    some (s.setRequest r (if busy then .done else .queueing))
  | some ⟨_, .queueing⟩ =>
    some (s.setRequest r (if keepsExisting true s.latestAnalysis then .done else .inserting))
  | some ⟨held, .inserting⟩ => some ((insertAnalysis held maxAttempts s).setRequest r .done)
  | some ⟨_, .done⟩ | none => none

/-! ### The job of an analysis -/

def claimAnalysis (a : Nat) (s : Material) : Option Material :=
  s.analyses[a]?.bind fun analysis => analysis.held.claim.map fun held =>
    { s.setAnalysis a { analysis with held := held, holder := some s.attempts.length } with
      attempts := s.attempts ++ [⟨a, .claimed⟩] }

/-- `process_raw_material_analysis_job` loads its rows; it raises where the material is archived. -/
def loadAnalysis (k : Nat) (s : Material) : Option Material :=
  match s.attempts[k]? with
  | some ⟨a, .claimed⟩ => s.analyses[a]?.map fun analysis =>
      s.setAttempt k (if analysis.holder ≠ some k ∨ s.status = .archived then .over
        else .loaded analysis.status s.status)
  | _ => none

/-- Its first transaction. A transaction raises without the lease. -/
def startAnalysis (k : Nat) (s : Material) : Option Material :=
  match s.attempts[k]? with
  | some ⟨a, .loaded status material⟩ => s.analyses[a]?.map fun analysis =>
      if analysis.holder ≠ some k then s.setAttempt k .over
      else
        { s.setAnalysis a { analysis with status := written status .running analysis.status } with
          status := written material .processing s.status }.setAttempt k .started
  | _ => none

/-- Its last transaction, with the result of the analysis or after an exception. -/
def finishAnalysis (k : Nat) (outcome : AnalysisOutcome) (s : Material) : Option Material :=
  match s.attempts[k]? with
  | some ⟨a, .started⟩ => s.analyses[a]?.map fun analysis =>
      if analysis.holder ≠ some k then s.setAttempt k .over
      else
        { s.setAnalysis a
            { status := outcome.analysis, held := analysis.held.settle outcome.job, holder := none } with
          status := written .processing outcome.material s.status }.setAttempt k .over
  | _ => none

/-- `finalize_exhausted_raw_material_analysis_job` -/
def finalizeExhaustedAnalysis (a : Nat) (analysis : Analysis) (s : Material) : Material :=
  if analysis.status.active then
    { s.setAnalysis a { analysis with status := .failed } with
      status := if s.status = .archived then .archived else .failed }
  else s.setAnalysis a analysis

/-- An attempt that ended without a result. -/
def dropAnalysis (a : Nat) (s : Material) : Option Material :=
  s.analyses[a]?.bind fun analysis =>
    let dropped := { analysis with held := analysis.held.drop, holder := none }
    if analysis.held.status ≠ .running then none
    else if analysis.held.exhausted then some (finalizeExhaustedAnalysis a dropped s)
    else some (s.setAnalysis a dropped)

/-! ### Steps -/

inductive MaterialEvent where
  | queueUpload (maxAttempts : Nat)
  | delete
  | analyze
  | queueAnalyze (request maxAttempts : Nat)
  | claim (analysis : Nat)
  | load (attempt : Nat)
  | start (attempt : Nat)
  | finish (attempt : Nat) (outcome : AnalysisOutcome)
  | drop (analysis : Nat)
deriving DecidableEq, Repr

def Material.step (s : Material) : MaterialEvent → Option Material
  | .queueUpload maxAttempts => Skills.queueUpload maxAttempts s
  | .delete => deleteMaterial s
  | .analyze => Skills.analyze s
  | .queueAnalyze r maxAttempts => Skills.queueAnalyze r maxAttempts s
  | .claim a => claimAnalysis a s
  | .load k => loadAnalysis k s
  | .start k => startAnalysis k s
  | .finish k outcome => finishAnalysis k outcome s
  | .drop a => dropAnalysis a s

end Psop.Skills
