import Mathlib.Data.List.Dedup
import Psop.Dict
import Psop.Runtime.Terminal
import Psop.SkillTests.Scenario
import Psop.SkillTests.Timeline

/-!
The finaliser of a scenario run.

A claim of its job judges one expectation at most. `openFinalizer` is the transaction before the
judge is called, `closeFinalizer` the one after it; between them the attempt may end without a
result, and another one may begin. What is pending is recomputed from the stored evaluations every
time. `Judged` is what holds of every reachable state. **`finalizer_verdict`** says that the verdict
is the right one if the ids of the expectations are distinct, and that the judge sees nothing of the
run that came after the cutoff if each expectation is judged before the run has a final output or the
final output came in time; where two ids are the same, **`shared_id_never_passes`**.
-/
namespace Psop.SkillTests

open Json
open Psop.Jobs (Held)
open Psop.Runtime (RunStatus JobStatus Direction)

inductive JudgeStatus where
  | passed | failed | inconclusive
deriving DecidableEq, Repr

/-- A terminal event as the judge sees it; times are in microseconds. -/
structure TranscriptEvent where
  seqNo : Nat
  direction : Direction
  occurredAt : Int
  payload : Json
deriving Repr

/-- The runtime run a scenario run watches. -/
structure RuntimeRun where
  status : RunStatus
  finalOutput : String
  exitReason : String
  terminalEvents : List TranscriptEvent

/-- `PreparedExpectationJudge`: what the judge is asked about an expectation. -/
structure JudgeRequest where
  expectation : Json
  scopedOutputs : List TranscriptEvent
  finalOutput : String
  runStatus : RunStatus
  cutoff : Int

def JudgeRequest.expectationId (request : JudgeRequest) : String := eventId request.expectation

/-- `SkillTestExpectationEvaluation`, with the request its raw response repeats. -/
structure Evaluation where
  request : JudgeRequest
  status : JudgeStatus

def Evaluation.expectationId (evaluation : Evaluation) : String := evaluation.request.expectationId

/-- The `reason` of a result summary. -/
inductive Reason where
  | runtime (exitReason : String)
  | judgeExpectationsNotSatisfied
  | runtimeCancelled
  | finalizerAttemptsExhausted
deriving DecidableEq, Repr

def Reason.text : Reason → String
  | runtime exitReason => exitReason
  | judgeExpectationsNotSatisfied => "judge_expectations_not_satisfied"
  | runtimeCancelled => "runtime_cancelled"
  | finalizerAttemptsExhausted => "scenario_finalizer_attempts_exhausted"

/-- `result_summary` -/
structure Summary where
  total : Nat
  passed : Nat
  failed : Nat
  inconclusive : Nat
  pending : Nat
  status : ScenarioStatus
  reason : Option Reason := none
deriving DecidableEq, Repr

inductive AttemptStage where
  | claimed
  | judging (request : JudgeRequest)
  | over

/-- The finaliser's job, its scenario run and the runtime run. -/
structure Finalizer where
  timeline : Timeline
  timeOrigin : Int
  status : ScenarioStatus
  summary : Summary
  evaluations : List Evaluation
  job : Held
  availableAt : Int
  attempts : List AttemptStage
  run : RuntimeRun
  now : Int

/-- `_initial_result_summary` -/
def initialResultSummary (timeline : Timeline) : Summary where
  total := timeline.expectationEvents.length
  passed := 0
  failed := 0
  inconclusive := 0
  pending := timeline.expectationEvents.length
  status := .running

namespace Finalizer

variable (s : Finalizer)

abbrev expectations : List Json := s.timeline.expectationEvents

/-- `_scenario_time` -/
def scenarioTime (atMs : Int) : Int := s.timeOrigin + 1000 * max 0 atMs

def cutoff (expectation : Json) : Int := s.scenarioTime (eventAtMs expectation)

def evaluatedIds : List String := s.evaluations.map Evaluation.expectationId

def missing : List Json := s.expectations.filter fun item => eventId item ∉ s.evaluatedIds

/-- The first missing expectation that may be judged. -/
def eligible : Option Json :=
  s.missing.find? fun item => s.run.status.finished || decide (s.cutoff item ≤ s.now)

/-- `_prepare_expectation_judge` on the outputs up to the cutoff. -/
def judgeRequest (expectation : Json) : JudgeRequest where
  expectation := expectation
  scopedOutputs := s.run.terminalEvents.filter fun item =>
    item.direction = .output && decide (item.occurredAt ≤ s.cutoff expectation)
  finalOutput := s.run.finalOutput
  runStatus := s.run.status
  cutoff := s.cutoff expectation

def setAttempt (k : Nat) (stage : AttemptStage) : Finalizer :=
  { s with attempts := s.attempts.set k stage }

end Finalizer

/-- `{item.expectation_id: item for item in evaluations}` -/
def byExpectation (evaluations : List Evaluation) : Dict String JudgeStatus :=
  evaluations.foldl (fun found item => found.put item.expectationId item.status) .empty

/-- How many expectations were judged so. -/
def countStatus (expectations : List Json) (evaluations : List Evaluation) (status : JudgeStatus) :
    Nat :=
  (byExpectation evaluations).entries.countP fun entry =>
    decide (entry.1 ∈ expectations.map eventId) && decide (entry.2 = status)

/-- `_summarize_expectations` -/
def summarizeExpectations (expectations : List Json) (evaluations : List Evaluation)
    (status : ScenarioStatus) : Summary :=
  let passed := countStatus expectations evaluations .passed
  let failed := countStatus expectations evaluations .failed
  let inconclusive := countStatus expectations evaluations .inconclusive
  { total := expectations.length
    passed := passed
    failed := failed
    inconclusive := inconclusive
    pending := expectations.length - (passed + failed + inconclusive)
    status := status }

/-- `_finalize_scenario_run` -/
def finalizeScenarioRun (s : Finalizer) : Finalizer :=
  let passed := s.run.status = .succeeded ∧ s.summary.pending = 0 ∧ s.summary.failed = 0 ∧
    s.summary.inconclusive = 0
  if passed then { s with status := .passed, summary := { s.summary with status := .passed } }
  else
    let reason := if s.run.status ≠ .succeeded ∧ s.run.exitReason ≠ "" then
      Reason.runtime s.run.exitReason else .judgeExpectationsNotSatisfied
    { s with
      status := .failed
      summary := { s.summary with status := .failed, reason := some reason } }

/-- `_finish_finalizer_job` -/
def finishFinalizerJob (s : Finalizer) : Finalizer :=
  { s with job := s.job.settle (if s.status = .cancelled then .cancelled else .succeeded) }

def FINALIZER_RUNTIME_POLL : Int := 5000000

/-- `_reschedule_finalizer_job` -/
def rescheduleFinalizerJob (s : Finalizer) : Finalizer :=
  let nextCutoff := s.missing.head?.map s.cutoff
  let pollAt := s.now + FINALIZER_RUNTIME_POLL
  let availableAt :=
    if s.run.status.finished ∨ ∃ cutoff ∈ nextCutoff, cutoff ≤ s.now then s.now
    else match nextCutoff with
      | some cutoff => if cutoff < pollAt then cutoff else pollAt
      | none => pollAt
  { s with job := s.job.again, availableAt := availableAt }

/-- The runtime run was cancelled. -/
def cancelScenarioRun (s : Finalizer) : Finalizer :=
  let reason := if s.run.exitReason = "" then Reason.runtimeCancelled else .runtime s.run.exitReason
  { s with
    status := .cancelled
    summary := { summarizeExpectations s.expectations s.evaluations s.status with
      status := .cancelled
      reason := some reason } }

/-- The end of a transaction of an open scenario run. -/
def settleFinalizer (s : Finalizer) : Finalizer :=
  let summarized := { s with summary := summarizeExpectations s.expectations s.evaluations s.status }
  if s.missing = [] ∧ s.run.status.finished then finishFinalizerJob (finalizeScenarioRun summarized)
  else rescheduleFinalizerJob summarized

/-- `process_finalizer_job` up to the call of the judge, or to its end without one. -/
def openFinalizer (s : Finalizer) : Finalizer × Option JudgeRequest :=
  if s.status.terminal then (finishFinalizerJob s, none)
  else if s.run.status = .cancelled then (finishFinalizerJob (cancelScenarioRun s), none)
  else match s.eligible with
    | some expectation => (s, some (s.judgeRequest expectation))
    | none => (settleFinalizer s, none)

/-- `process_finalizer_job` after the judge, on the rows as they are then. -/
def closeFinalizer (request : JudgeRequest) (status : JudgeStatus) (s : Finalizer) : Finalizer :=
  if s.job.status ≠ .running then s
  else if s.status.terminal then finishFinalizerJob s
  else if request.expectationId ∈ s.evaluatedIds then settleFinalizer s
  else settleFinalizer { s with evaluations := s.evaluations ++ [⟨request, status⟩] }

/-- `finalize_exhausted_scenario_finalizer_job` -/
def finalizeExhausted (s : Finalizer) : Finalizer :=
  if s.status.terminal then s
  else { s with
    status := .failed
    summary := { summarizeExpectations s.expectations s.evaluations s.status with
      status := .failed
      reason := some .finalizerAttemptsExhausted } }

/-- An attempt ends without a result: it raises, its process stops or its lease expires. -/
def dropAttempt (s : Finalizer) : Option Finalizer :=
  if s.job.status ≠ .running then none
  else some { if s.job.exhausted then finalizeExhausted s else s with job := s.job.drop }

/-- `_ensure_finalizer_job_pending`, where an evaluation is requested. -/
def wakeFinalizer (s : Finalizer) : Option Finalizer :=
  if s.status.terminal then none
  else if s.job.status = .running ∨
      Jobs.Queue.waits s.job.status ∧ s.job.attemptNo < s.job.maxAttempts then some s
  else some { s with job := s.job.again }

inductive FinalizerEvent where
  | claim
  | begin (attempt : Nat)
  /-- The judge answers an attempt, or the call raises. -/
  | judged (attempt : Nat) (result : Option JudgeStatus)
  | drop
  | wake
  /-- The runtime run moves on. -/
  | runtime (run : RuntimeRun)
  | tick (now : Int)

/-- A finished runtime run stays as it is, another one only gets more terminal events. -/
def RuntimeRun.Becomes (before after : RuntimeRun) : Prop :=
  if before.status.finished then after = before
  else ∃ more, after.terminalEvents = before.terminalEvents ++ more

/-- What the environment may do: clocks do not go back. -/
def Finalizer.may (s : Finalizer) : FinalizerEvent → Prop
  | .runtime run => s.run.Becomes run
  | .tick now => s.now ≤ now
  | _ => True

/-- The answer of the judge to an attempt, which raises unless it is the last one. -/
def answerAttempt (k : Nat) (result : Option JudgeStatus) (request : JudgeRequest) (s : Finalizer) :
    Option Finalizer :=
  match result with
  | some status => some ((closeFinalizer request status s).setAttempt k .over)
  | none =>
    if s.job.attemptNo < s.job.maxAttempts then (dropAttempt s).map (·.setAttempt k .over)
    else some ((closeFinalizer request .inconclusive s).setAttempt k .over)

def Finalizer.step (s : Finalizer) : FinalizerEvent → Option Finalizer
  | .claim => s.job.claim.map fun job => { s with job := job, attempts := s.attempts ++ [.claimed] }
  | .begin k => match s.attempts[k]? with
    | some .claimed => match openFinalizer s with
      | (next, some request) => some (next.setAttempt k (.judging request))
      | (next, none) => some (next.setAttempt k .over)
    | _ => none
  | .judged k result => match s.attempts[k]? with
    | some (.judging request) => answerAttempt k result request s
    | _ => none
  | .drop => dropAttempt s
  | .wake => wakeFinalizer s
  | .runtime run => some { s with run := run }
  | .tick now => some { s with now := now }

/-- The scenario run when its timeline driver has completed. -/
def Finalizer.started (timeline : Timeline) (timeOrigin now : Int) (run : RuntimeRun)
    (maxAttempts : Nat) : Finalizer where
  timeline := timeline
  timeOrigin := timeOrigin
  status := .running
  summary := initialResultSummary timeline
  evaluations := []
  job := { maxAttempts := maxAttempts }
  availableAt := now
  attempts := []
  run := run
  now := now

/-! ### Counting -/

theorem count_by_status (entries : List (String × JudgeStatus)) (ids : List String) :
    (entries.countP fun entry => decide (entry.1 ∈ ids) && decide (entry.2 = .passed)) +
      (entries.countP fun entry => decide (entry.1 ∈ ids) && decide (entry.2 = .failed)) +
      (entries.countP fun entry => decide (entry.1 ∈ ids) && decide (entry.2 = .inconclusive)) =
      entries.countP fun entry => decide (entry.1 ∈ ids) := by
  induction entries with
  | nil => rfl
  | cons entry entries ih =>
    obtain ⟨id, status⟩ := entry
    simp only [List.countP_cons]
    cases status <;> simp <;> omega

/-- However many entries a dictionary has, at most one is counted for each expectation. -/
theorem counted_le (found : Dict String JudgeStatus) (ids : List String) :
    (found.entries.countP fun entry => decide (entry.1 ∈ ids)) ≤ ids.length := by
  have same : (found.entries.countP fun entry => decide (entry.1 ∈ ids)) =
      (found.keys.filter fun id => decide (id ∈ ids)).length := by
    rw [Dict.keys, List.filter_map, List.length_map, List.countP_eq_length_filter]
    rfl
  rw [same]
  apply (List.subperm_of_subset (found.distinct.filter _) _).length_le
  intro id isIn
  exact of_decide_eq_true (List.mem_filter.mp isIn).2

/-- The counts of a summary add up to its total. -/
def Summary.Adds (summary : Summary) : Prop :=
  summary.passed + summary.failed + summary.inconclusive + summary.pending = summary.total

theorem summarize_adds (expectations : List Json) (evaluations : List Evaluation)
    (status : ScenarioStatus) : (summarizeExpectations expectations evaluations status).Adds := by
  have counted := counted_le (byExpectation evaluations) (expectations.map eventId)
  rw [← count_by_status, List.length_map] at counted
  simp only [Summary.Adds, summarizeExpectations, countStatus]
  omega

theorem entries_of_distinct {evaluations : List Evaluation}
    (distinct : (evaluations.map Evaluation.expectationId).Nodup) :
    (byExpectation evaluations).entries =
      evaluations.map fun item => (item.expectationId, item.status) := by
  induction evaluations using List.reverseRecOn with
  | nil => rfl
  | append_singleton evaluations last ih =>
    rw [List.map_append, List.nodup_append] at distinct
    obtain ⟨distinct, -, apart⟩ := distinct
    have fresh : last.expectationId ∉ (byExpectation evaluations).keys := by
      intro known
      rw [Dict.keys, ih distinct, List.map_map] at known
      exact apart _ known _ (List.mem_singleton_self _) rfl
    rw [byExpectation, List.foldl_append, List.foldl_cons, List.foldl_nil]
    rw [← byExpectation, Dict.entries_put fresh, ih distinct, List.map_append]
    rfl

/-- What is counted, where no two evaluations are of one expectation. -/
theorem count_of_distinct {evaluations : List Evaluation} (expectations : List Json)
    (status : JudgeStatus) (distinct : (evaluations.map Evaluation.expectationId).Nodup) :
    countStatus expectations evaluations status =
      evaluations.countP fun item =>
        decide (item.expectationId ∈ expectations.map eventId) && decide (item.status = status) := by
  rw [countStatus, entries_of_distinct distinct, List.countP_map]
  rfl

/-- Where the ids of the expectations are distinct and each has its evaluation, nothing is pending. -/
theorem nothing_pending {expectations : List Json} {evaluations : List Evaluation}
    (ids : (expectations.map eventId).Nodup)
    (distinct : (evaluations.map Evaluation.expectationId).Nodup)
    (covered : ∀ item ∈ expectations, eventId item ∈ evaluations.map Evaluation.expectationId)
    (status : ScenarioStatus) : (summarizeExpectations expectations evaluations status).pending = 0 := by
  have all : (expectations.map eventId).length ≤
      ((evaluations.map Evaluation.expectationId).filter fun id =>
        decide (id ∈ expectations.map eventId)).length := by
    apply (List.subperm_of_subset ids _).length_le
    intro id isIn
    obtain ⟨item, isItem, rfl⟩ := List.mem_map.mp isIn
    exact List.mem_filter.mpr ⟨covered item isItem, decide_eq_true isIn⟩
  rw [List.length_map, List.filter_map, List.length_map, ← List.countP_eq_length_filter] at all
  simp only [summarizeExpectations, countStatus]
  rw [count_by_status, entries_of_distinct distinct, List.countP_map]
  exact Nat.sub_eq_zero_of_le all

/-- A key that all elements have of their own selects one of them. -/
theorem filter_of_distinct {α κ : Type} [DecidableEq κ] {key : α → κ} {xs : List α} {x : α}
    (distinct : (xs.map key).Nodup) (isIn : x ∈ xs) :
    (xs.filter fun y => decide (key y = key x)) = [x] := by
  induction xs with
  | nil => cases isIn
  | cons first rest ih =>
    rw [List.map_cons, List.nodup_cons] at distinct
    rcases List.mem_cons.mp isIn with rfl | later
    · rw [List.filter_cons_of_pos (by simp), List.filter_eq_nil_iff.mpr]
      intro y isLater same
      exact distinct.1 (of_decide_eq_true same ▸ List.mem_map_of_mem isLater)
    · rw [List.filter_cons_of_neg, ih distinct.2 later]
      intro same
      exact distinct.1 (of_decide_eq_true same ▸ List.mem_map_of_mem later)

/-! ### What the finaliser keeps -/

/-- A request is about an expectation of the timeline, and the outputs listed in it are those up to
the cutoff of this expectation. -/
def Finalizer.Grounded (s : Finalizer) (request : JudgeRequest) : Prop :=
  request.expectation ∈ s.expectations ∧ request.cutoff = s.cutoff request.expectation ∧
    ∀ output ∈ request.scopedOutputs,
      output.direction = .output ∧ output.occurredAt ≤ request.cutoff

/-- The final output shown beside the list is one of the outputs listed, or empty. -/
def JudgeRequest.FinalListed (request : JudgeRequest) : Prop :=
  request.finalOutput = "" ∨
    ∃ output ∈ request.scopedOutputs, output.payload.str? = some request.finalOutput

/-- What holds of every request in flight (`asks`) and of every stored evaluation (`stores`), with
what the summary says of them. -/
structure Judged (asks : JudgeRequest → Prop) (stores : Evaluation → Prop) (s : Finalizer) : Prop where
  /-- No expectation is stored as judged twice. -/
  once : s.evaluatedIds.Nodup
  stored : ∀ item ∈ s.evaluations, stores item
  asked : ∀ request, .judging request ∈ s.attempts → asks request
  total : s.summary.total = s.expectations.length
  adds : s.summary.Adds

/-- The statuses of the evaluations stored for an expectation. -/
def statusesOf (evaluations : List Evaluation) (expectation : Json) : List JudgeStatus :=
  (evaluations.filter fun stored => decide (stored.expectationId = eventId expectation)).map
    Evaluation.status

/-- The runtime run succeeded, and every expectation has exactly one evaluation, a passed one. -/
def Finalizer.AllPassed (s : Finalizer) : Prop :=
  s.run.status = .succeeded ∧ ∀ item ∈ s.expectations, statusesOf s.evaluations item = [.passed]

/-- What the status of a finalised scenario run says. -/
def Finalizer.Right (s : Finalizer) : Prop :=
  s.status.terminal → s.run.status.finished ∧ (s.status = .passed ↔ s.AllPassed)

variable {s t : Finalizer} {asks : JudgeRequest → Prop} {stores : Evaluation → Prop}

theorem grounded_request {expectation : Json} (isIn : expectation ∈ s.expectations) :
    s.Grounded (s.judgeRequest expectation) := by
  refine ⟨isIn, rfl, fun output isShown => ?_⟩
  have shown := (List.mem_filter.mp isShown).2
  rw [Bool.and_eq_true] at shown
  exact ⟨of_decide_eq_true shown.1, of_decide_eq_true shown.2⟩

theorem eligible_known {expectation : Json} (eligible : s.eligible = some expectation) :
    expectation ∈ s.expectations :=
  List.mem_of_mem_filter (List.mem_of_find?_eq_some eligible)

/-- Where nothing is missing, nothing but passed evaluations is counted iff each expectation has a
passed one. -/
theorem none_rejected_iff (once : s.evaluatedIds.Nodup) (covered : s.missing = []) :
    (countStatus s.expectations s.evaluations .failed = 0 ∧
      countStatus s.expectations s.evaluations .inconclusive = 0) ↔
    ∀ item ∈ s.expectations, statusesOf s.evaluations item = [.passed] := by
  rw [count_of_distinct _ _ once, count_of_distinct _ _ once, List.countP_eq_zero,
    List.countP_eq_zero]
  simp only [Bool.and_eq_true, decide_eq_true_eq, not_and]
  constructor
  · rintro ⟨noneFailed, noneOpen⟩ item isIn
    have evaluated : eventId item ∈ s.evaluatedIds := by
      by_contra notYet
      have isMissing : item ∈ s.missing := List.mem_filter.mpr ⟨isIn, decide_eq_true notYet⟩
      rw [covered] at isMissing
      cases isMissing
    obtain ⟨evaluation, stored, isItem⟩ := List.mem_map.mp evaluated
    have known : evaluation.expectationId ∈ s.expectations.map eventId :=
      isItem ▸ List.mem_map_of_mem isIn
    rw [statusesOf, ← isItem, filter_of_distinct once stored, List.map_singleton]
    cases status : evaluation.status with
    | passed => rfl
    | failed => exact absurd status (noneFailed evaluation stored known)
    | inconclusive => exact absurd status (noneOpen evaluation stored known)
  · intro allPassed
    have passes : ∀ evaluation ∈ s.evaluations,
        evaluation.expectationId ∈ s.expectations.map eventId → evaluation.status = .passed := by
      intro evaluation stored known
      obtain ⟨item, isIn, same⟩ := List.mem_map.mp known
      have passed := allPassed item isIn
      rw [statusesOf, same, filter_of_distinct once stored] at passed
      exact (List.cons.inj passed).1
    constructor
    · intro evaluation stored known
      rw [passes evaluation stored known]
      exact nofun
    · intro evaluation stored known
      rw [passes evaluation stored known]
      exact nofun

theorem judged_finish (judged : Judged asks stores s) : Judged asks stores (finishFinalizerJob s) :=
  ⟨judged.once, judged.stored, judged.asked, judged.total, judged.adds⟩

theorem judged_summary (judged : Judged asks stores s) (status : ScenarioStatus) (reason : Option Reason) :
    Judged asks stores { s with
      status := status
      summary := { summarizeExpectations s.expectations s.evaluations s.status with
        status := status
        reason := reason } } :=
  ⟨judged.once, judged.stored, judged.asked, rfl, summarize_adds _ _ s.status⟩

theorem judged_finalize (judged : Judged asks stores s) : Judged asks stores (finalizeScenarioRun s) := by
  unfold finalizeScenarioRun
  dsimp only
  split <;> exact ⟨judged.once, judged.stored, judged.asked, judged.total, judged.adds⟩

theorem judged_settle (judged : Judged asks stores s) : Judged asks stores (settleFinalizer s) := by
  have summarized := judged_summary judged s.status none
  unfold settleFinalizer
  dsimp only
  split
  · exact judged_finish (judged_finalize summarized)
  · exact ⟨summarized.once, summarized.stored, summarized.asked, summarized.total, summarized.adds⟩

theorem judged_attempt (judged : Judged asks stores s) (k : Nat) {stage : AttemptStage}
    (asked : ∀ request, stage = .judging request → asks request) :
    Judged asks stores (s.setAttempt k stage) := by
  refine ⟨judged.once, judged.stored, fun request isIn => ?_, judged.total, judged.adds⟩
  rcases List.mem_or_eq_of_mem_set isIn with before | isNew
  · exact judged.asked request before
  · exact asked request isNew.symm

theorem judged_open (judged : Judged asks stores s) : Judged asks stores (openFinalizer s).1 := by
  unfold openFinalizer
  split
  · exact judged_finish judged
  · split
    · exact judged_finish (judged_summary judged .cancelled _)
    · cases s.eligible with
      | some expectation => exact judged
      | none => exact judged_settle judged

theorem once_store (once : s.evaluatedIds.Nodup) {request : JudgeRequest}
    (notYet : request.expectationId ∉ s.evaluatedIds) (status : JudgeStatus) :
    ((s.evaluations ++ [Evaluation.mk request status]).map Evaluation.expectationId).Nodup := by
  rw [List.map_append]
  refine List.nodup_append.mpr ⟨once, List.nodup_singleton _, ?_⟩
  intro id stored other isNew same
  rw [same, List.mem_singleton.mp isNew] at stored
  exact notYet stored

theorem judged_close (judged : Judged asks stores s) {request : JudgeRequest} {status : JudgeStatus}
    (storable : stores ⟨request, status⟩) : Judged asks stores (closeFinalizer request status s) := by
  unfold closeFinalizer
  split
  · exact judged
  · split
    · exact judged_finish judged
    · split
      · exact judged_settle judged
      · rename_i notYet
        apply judged_settle
        refine ⟨once_store judged.once notYet status, ?_, judged.asked, judged.total, judged.adds⟩
        intro item isIn
        rcases List.mem_append.mp isIn with stored | isNew
        · exact judged.stored item stored
        · rw [List.mem_singleton.mp isNew]
          exact storable

theorem judged_drop (judged : Judged asks stores s) (dropped : dropAttempt s = some t) : Judged asks stores t := by
  unfold dropAttempt at dropped
  split at dropped
  · cases dropped
  obtain rfl := Option.some.inj dropped
  split
  · unfold finalizeExhausted
    split
    · exact ⟨judged.once, judged.stored, judged.asked, judged.total, judged.adds⟩
    · exact ⟨judged.once, judged.stored, judged.asked, rfl, summarize_adds _ _ s.status⟩
  · exact ⟨judged.once, judged.stored, judged.asked, judged.total, judged.adds⟩

theorem judged_wake (judged : Judged asks stores s) (woken : wakeFinalizer s = some t) : Judged asks stores t := by
  unfold wakeFinalizer at woken
  split at woken
  · cases woken
  · split at woken
    · exact Option.some.inj woken ▸ judged
    · obtain rfl := Option.some.inj woken
      exact ⟨judged.once, judged.stored, judged.asked, judged.total, judged.adds⟩

theorem judged_answer (judged : Judged asks stores s) {k : Nat} {result : Option JudgeStatus}
    {request : JudgeRequest} (storable : stores ⟨request, result.getD .inconclusive⟩)
    (answered : answerAttempt k result request s = some t) : Judged asks stores t := by
  cases result with
  | some status =>
    obtain rfl := Option.some.inj answered
    exact judged_attempt (judged_close judged storable) k nofun
  | none =>
    rw [answerAttempt] at answered
    split at answered
    · obtain ⟨u, dropped, rfl⟩ := Option.map_eq_some_iff.mp answered
      exact judged_attempt (judged_drop judged dropped) k nofun
    · obtain rfl := Option.some.inj answered
      exact judged_attempt (judged_close judged storable) k nofun

theorem open_request {request : JudgeRequest} (opened : (openFinalizer s).2 = some request) :
    (openFinalizer s).1 = s ∧ ∃ item, s.eligible = some item ∧ request = s.judgeRequest item := by
  unfold openFinalizer at opened ⊢
  split at opened
  · cases opened
  · rename_i isOpen
    rw [if_neg isOpen]
    split at opened
    · cases opened
    · rename_i notCancelled
      rw [if_neg notCancelled]
      cases eligible : s.eligible with
      | none =>
        rw [eligible] at opened
        cases opened
      | some item =>
        rw [eligible] at opened
        exact ⟨rfl, item, rfl, (Option.some.inj opened).symm⟩

/-- The answer of an event to a request is one that may be stored. -/
def Finalizer.StorableAnswer (asks : JudgeRequest → Prop) (stores : Evaluation → Prop) (s : Finalizer)
    (event : FinalizerEvent) : Prop :=
  ∀ k result request, event = .judged k result → s.attempts[k]? = some (.judging request) →
    asks request → stores ⟨request, result.getD .inconclusive⟩

theorem judged_step {event : FinalizerEvent} (judged : Judged asks stores s)
    (known : ∀ k item, event = .begin k → s.eligible = some item → asks (s.judgeRequest item))
    (answers : s.StorableAnswer asks stores event)
    (stepped : s.step event = some t) : Judged asks stores t := by
  cases event with
  | claim =>
    obtain ⟨job, -, rfl⟩ := Option.map_eq_some_iff.mp stepped
    refine ⟨judged.once, judged.stored, fun request isIn => ?_, judged.total, judged.adds⟩
    rcases List.mem_append.mp isIn with before | isNew
    · exact judged.asked request before
    · cases List.mem_singleton.mp isNew
  | begin k =>
    rw [Finalizer.step] at stepped
    split at stepped
    · have opened := judged_open judged
      split at stepped
      · rename_i next request isOpen
        obtain rfl := Option.some.inj stepped
        rw [isOpen] at opened
        have asks : (openFinalizer s).2 = some request := by rw [isOpen]
        obtain ⟨same, item, eligible, rfl⟩ := open_request asks
        obtain rfl : next = s := by rw [isOpen] at same; exact same
        refine judged_attempt opened k fun other isOther => ?_
        obtain rfl := AttemptStage.judging.inj isOther
        exact known k item rfl eligible
      · rename_i next isOpen
        obtain rfl := Option.some.inj stepped
        rw [isOpen] at opened
        exact judged_attempt opened k nofun
    · cases stepped
  | judged k result =>
    rw [Finalizer.step] at stepped
    split at stepped
    · rename_i request asked
      exact judged_answer judged (answers k result request rfl asked
        (judged.asked request (List.mem_of_getElem? asked))) stepped
    · cases stepped
  | drop => exact judged_drop judged stepped
  | wake => exact judged_wake judged stepped
  | runtime run =>
    obtain rfl := Option.some.inj stepped
    exact ⟨judged.once, judged.stored, judged.asked, judged.total, judged.adds⟩
  | tick now =>
    obtain rfl := Option.some.inj stepped
    exact ⟨judged.once, judged.stored, judged.asked, judged.total, judged.adds⟩

/-! ### What a step does -/

/-- What no attempt changes. -/
structure Same (s t : Finalizer) : Prop where
  timeline : t.timeline = s.timeline
  timeOrigin : t.timeOrigin = s.timeOrigin
  run : t.run = s.run

theorem same_settle (s : Finalizer) : Same s (settleFinalizer s) := by
  unfold settleFinalizer finalizeScenarioRun
  dsimp only
  split
  · split <;> exact ⟨rfl, rfl, rfl⟩
  · exact ⟨rfl, rfl, rfl⟩

theorem same_open (s : Finalizer) : Same s (openFinalizer s).1 := by
  unfold openFinalizer
  split
  · exact ⟨rfl, rfl, rfl⟩
  · split
    · exact ⟨rfl, rfl, rfl⟩
    · cases s.eligible with
      | some expectation => exact ⟨rfl, rfl, rfl⟩
      | none => exact same_settle s

theorem same_close (request : JudgeRequest) (status : JudgeStatus) (s : Finalizer) :
    Same s (closeFinalizer request status s) := by
  unfold closeFinalizer
  split
  · exact ⟨rfl, rfl, rfl⟩
  · split
    · exact ⟨rfl, rfl, rfl⟩
    · split
      · exact same_settle s
      · have settled := same_settle { s with evaluations := s.evaluations ++ [⟨request, status⟩] }
        exact ⟨settled.timeline, settled.timeOrigin, settled.run⟩

theorem same_drop (dropped : dropAttempt s = some t) : Same s t := by
  unfold dropAttempt finalizeExhausted at dropped
  split at dropped
  · cases dropped
  · obtain rfl := Option.some.inj dropped
    split
    · split <;> exact ⟨rfl, rfl, rfl⟩
    · exact ⟨rfl, rfl, rfl⟩

theorem same_answer {k : Nat} {result : Option JudgeStatus} {request : JudgeRequest}
    (answered : answerAttempt k result request s = some t) : Same s t := by
  cases result with
  | some status =>
    obtain rfl := Option.some.inj answered
    have closed := same_close request status s
    exact ⟨closed.timeline, closed.timeOrigin, closed.run⟩
  | none =>
    rw [answerAttempt] at answered
    split at answered
    · obtain ⟨u, dropped, rfl⟩ := Option.map_eq_some_iff.mp answered
      have kept := same_drop dropped
      exact ⟨kept.timeline, kept.timeOrigin, kept.run⟩
    · obtain rfl := Option.some.inj answered
      have closed := same_close request .inconclusive s
      exact ⟨closed.timeline, closed.timeOrigin, closed.run⟩

theorem same_step {event : FinalizerEvent} (notRuntime : ∀ run, event ≠ .runtime run)
    (stepped : s.step event = some t) : Same s t := by
  cases event with
  | claim =>
    obtain ⟨job, -, rfl⟩ := Option.map_eq_some_iff.mp stepped
    exact ⟨rfl, rfl, rfl⟩
  | begin k =>
    rw [Finalizer.step] at stepped
    have opened := same_open s
    split at stepped
    · split at stepped <;>
      · rename_i isOpen
        obtain rfl := Option.some.inj stepped
        rw [isOpen] at opened
        exact ⟨opened.timeline, opened.timeOrigin, opened.run⟩
    · cases stepped
  | judged k result =>
    rw [Finalizer.step] at stepped
    split at stepped
    · exact same_answer stepped
    · cases stepped
  | drop => exact same_drop stepped
  | wake =>
    rw [Finalizer.step, wakeFinalizer] at stepped
    split at stepped
    · cases stepped
    · split at stepped <;>
      · obtain rfl := Option.some.inj stepped
        exact ⟨rfl, rfl, rfl⟩
  | runtime run => exact absurd rfl (notRuntime run)
  | tick now =>
    obtain rfl := Option.some.inj stepped
    exact ⟨rfl, rfl, rfl⟩

/-- The summary of a state, recomputed from the stored evaluations. -/
def Finalizer.summarized (s : Finalizer) : Finalizer :=
  { s with summary := summarizeExpectations s.expectations s.evaluations s.status }

/-- What a step makes of the scenario run and its evaluations, unless the last attempt is lost. -/
inductive Moves (s : Finalizer) (status : ScenarioStatus) (summary : Summary)
    (evaluations : List Evaluation) : Prop
  | rests (same : status = s.status)
      (kept : s.status.terminal → summary = s.summary ∧ evaluations = s.evaluations)
  | cancels (cancelled : s.run.status = .cancelled) (isCancelled : status = .cancelled)
  | closes (u : Finalizer) (same : Same s u) (once : u.evaluatedIds.Nodup) (covered : u.missing = [])
      (finished : u.run.status.finished) (isStatus : status = (finalizeScenarioRun u.summarized).status)
      (isSummary : summary = (finalizeScenarioRun u.summarized).summary)
      (stored : evaluations = u.evaluations)

/-- The scenario run and its evaluations move so. -/
abbrev MovesTo (s t : Finalizer) : Prop := Moves s t.status t.summary t.evaluations

theorem moves_rests (s : Finalizer) : MovesTo s s := .rests rfl fun _ => ⟨rfl, rfl⟩

theorem moves_settle {u : Finalizer} (same : Same s u) (isStatus : u.status = s.status)
    (isOpen : ¬ s.status.terminal = true) (once : u.evaluatedIds.Nodup) : MovesTo s (settleFinalizer u) := by
  unfold settleFinalizer
  dsimp only
  split
  · rename_i done
    refine .closes u same once done.1 done.2 rfl rfl ?_
    unfold finalizeScenarioRun
    dsimp only
    split <;> rfl
  · exact .rests isStatus fun terminal => absurd terminal isOpen

theorem moves_open (once : s.evaluatedIds.Nodup) : MovesTo s (openFinalizer s).1 := by
  unfold openFinalizer
  split
  · exact moves_rests s
  · rename_i isOpen
    split
    · rename_i cancelled
      exact .cancels cancelled rfl
    · cases s.eligible with
      | some expectation => exact moves_rests s
      | none => exact moves_settle ⟨rfl, rfl, rfl⟩ rfl isOpen once

theorem moves_close (once : s.evaluatedIds.Nodup) (request : JudgeRequest)
    (status : JudgeStatus) : MovesTo s (closeFinalizer request status s) := by
  unfold closeFinalizer
  split
  · exact moves_rests s
  · split
    · exact moves_rests s
    · rename_i isOpen
      split
      · exact moves_settle ⟨rfl, rfl, rfl⟩ rfl isOpen once
      · rename_i notYet
        exact moves_settle ⟨rfl, rfl, rfl⟩ rfl isOpen (once_store once notYet status)

theorem moves_drop (retried : s.job.exhausted = false) (dropped : dropAttempt s = some t) :
    MovesTo s t := by
  unfold dropAttempt at dropped
  rw [retried, if_neg Bool.false_ne_true] at dropped
  split at dropped
  · cases dropped
  · obtain rfl := Option.some.inj dropped
    exact moves_rests s

theorem moves_answer (once : s.evaluatedIds.Nodup) {k : Nat} {result : Option JudgeStatus}
    {request : JudgeRequest} (answered : answerAttempt k result request s = some t) :
    MovesTo s t := by
  cases result with
  | some status =>
    obtain rfl := Option.some.inj answered
    exact moves_close once request status
  | none =>
    rw [answerAttempt] at answered
    split at answered
    · rename_i left
      obtain ⟨u, dropped, rfl⟩ := Option.map_eq_some_iff.mp answered
      have retried : s.job.exhausted = false := by
        rw [Jobs.Held.exhausted, decide_eq_false (Nat.not_le.mpr left), Bool.and_false]
      have moves : MovesTo s u := moves_drop retried dropped
      exact moves
    · obtain rfl := Option.some.inj answered
      exact moves_close once request .inconclusive

/-- The attempts of a finaliser are retried: what is lost is never the last attempt of its job. -/
def Finalizer.retried (s : Finalizer) : FinalizerEvent → Prop
  | .drop => s.job.exhausted = false
  | _ => True

theorem moves_step {event : FinalizerEvent} (once : s.evaluatedIds.Nodup) (retried : s.retried event)
    (stepped : s.step event = some t) : MovesTo s t := by
  cases event with
  | claim =>
    obtain ⟨job, -, rfl⟩ := Option.map_eq_some_iff.mp stepped
    exact moves_rests s
  | begin k =>
    rw [Finalizer.step] at stepped
    have opened := moves_open once
    split at stepped
    · split at stepped <;>
      · rename_i isOpen
        obtain rfl := Option.some.inj stepped
        rw [isOpen] at opened
        exact opened
    · cases stepped
  | judged k result =>
    rw [Finalizer.step] at stepped
    split at stepped
    · exact moves_answer once stepped
    · cases stepped
  | drop => exact moves_drop retried stepped
  | wake =>
    rw [Finalizer.step, wakeFinalizer] at stepped
    split at stepped
    · cases stepped
    · split at stepped <;>
      · obtain rfl := Option.some.inj stepped
        exact moves_rests s
  | runtime run =>
    obtain rfl := Option.some.inj stepped
    exact moves_rests s
  | tick now =>
    obtain rfl := Option.some.inj stepped
    exact moves_rests s

/-! ### What the finaliser concludes -/

theorem finalize_right {u : Finalizer} (once : u.evaluatedIds.Nodup) (ids : (u.expectations.map eventId).Nodup)
    (covered : u.missing = []) : (finalizeScenarioRun u.summarized).status = .passed ↔ u.AllPassed := by
  have nothing := nothing_pending ids once (fun item isIn => by
    by_contra notYet
    have isMissing : item ∈ u.missing := List.mem_filter.mpr ⟨isIn, decide_eq_true notYet⟩
    rw [covered] at isMissing
    cases isMissing) u.status
  have rejected := none_rejected_iff once covered
  unfold finalizeScenarioRun
  dsimp only
  split
  · rename_i passes
    exact ⟨fun _ => ⟨passes.1, rejected.mp passes.2.2⟩, fun _ => rfl⟩
  · rename_i fails
    refine ⟨nofun, fun allPassed => absurd ?_ fails⟩
    exact ⟨allPassed.1, nothing, rejected.mpr allPassed.2⟩

/-- The runtime run of a finalised scenario run stays as it is. -/
theorem right_runtime {run : RuntimeRun} (right : s.Right) (becomes : s.run.Becomes run) :
    Finalizer.Right { s with run := run } := by
  intro terminal
  have finished := (right terminal).1
  rw [RuntimeRun.Becomes, if_pos finished] at becomes
  rw [becomes]
  exact right terminal

theorem right_moves (ids : (s.expectations.map eventId).Nodup) (right : s.Right) (same : Same s t)
    (moves : MovesTo s t) : t.Right := by
  intro terminal
  rw [Finalizer.AllPassed, Finalizer.expectations, same.timeline, same.run]
  cases moves with
  | rests isStatus kept =>
    rw [isStatus] at terminal
    rw [isStatus, (kept terminal).2]
    exact right terminal
  | cancels cancelled isCancelled =>
    rw [isCancelled, cancelled]
    exact ⟨rfl, nofun, fun allPassed => nomatch allPassed.1⟩
  | closes u kept once covered finished isStatus isSummary stored =>
    have known : (u.expectations.map eventId).Nodup := by
      rw [Finalizer.expectations, kept.timeline]
      exact ids
    have verdict := finalize_right once known covered
    rw [Finalizer.AllPassed, Finalizer.expectations, kept.timeline, kept.run] at verdict
    rw [kept.run] at finished
    rw [isStatus, stored]
    exact ⟨finished, verdict⟩

theorem right_step {event : FinalizerEvent} (once : s.evaluatedIds.Nodup)
    (ids : (s.expectations.map eventId).Nodup) (right : s.Right)
    (may : s.may event ∧ s.retried event) (stepped : s.step event = some t) : t.Right := by
  by_cases isRuntime : ∃ run, event = .runtime run
  · obtain ⟨run, rfl⟩ := isRuntime
    obtain rfl := Option.some.inj stepped
    exact right_runtime right may.1
  · exact right_moves ids right (same_step (not_exists.mp isRuntime) stepped)
      (moves_step once may.2 stepped)

/-! ### Whole runs -/

theorem setting_step {event : FinalizerEvent} (stepped : s.step event = some t) :
    t.timeline = s.timeline ∧ t.timeOrigin = s.timeOrigin := by
  by_cases isRuntime : ∃ run, event = .runtime run
  · obtain ⟨run, rfl⟩ := isRuntime
    obtain rfl := Option.some.inj stepped
    exact ⟨rfl, rfl⟩
  · have same := same_step (not_exists.mp isRuntime) stepped
    exact ⟨same.timeline, same.timeOrigin⟩

/-- What holds in every state, whatever the ids. -/
structure Recorded (start s : Finalizer) : Prop where
  judged : Judged start.Grounded (fun item => start.Grounded item.request) s
  setting : s.timeline = start.timeline ∧ s.timeOrigin = start.timeOrigin

theorem Recorded.expectations {start : Finalizer} (recorded : Recorded start s) :
    s.expectations = start.expectations := by
  rw [Finalizer.expectations, recorded.setting.1]

theorem Recorded.grounded {start : Finalizer} (recorded : Recorded start s)
    (request : JudgeRequest) : s.Grounded request ↔ start.Grounded request := by
  simp only [Finalizer.Grounded, Finalizer.expectations, Finalizer.cutoff, Finalizer.scenarioTime,
    recorded.setting.1, recorded.setting.2]

theorem recorded_started (timeline : Timeline) (timeOrigin now : Int) (run : RuntimeRun)
    (maxAttempts : Nat) : Recorded (.started timeline timeOrigin now run maxAttempts)
      (.started timeline timeOrigin now run maxAttempts) := by
  refine ⟨⟨List.nodup_nil, nofun, nofun, rfl, ?_⟩, rfl, rfl⟩
  simp [Finalizer.started, initialResultSummary, Summary.Adds]

theorem recorded_step {start : Finalizer} {event : FinalizerEvent} (recorded : Recorded start s)
    (stepped : s.step event = some t) : Recorded start t := by
  refine ⟨judged_step recorded.judged (fun _ item _ eligible => ?_) ?_ stepped, ?_⟩
  · exact (recorded.grounded _).mp (grounded_request (eligible_known eligible))
  · exact fun _ _ _ _ _ asked => asked
  · have kept := setting_step stepped
    exact ⟨kept.1.trans recorded.setting.1, kept.2.trans recorded.setting.2⟩

theorem recorded_run {allowed : Finalizer → FinalizerEvent → Prop} {start : Finalizer}
    (run : Run Finalizer.step allowed s t) (recorded : Recorded start s) : Recorded start t :=
  run.invariant (fun _ _ _ held _ stepped => recorded_step held stepped) recorded

/-- The run has no final output, or it came as an output up to the cutoff of the expectation. -/
def Finalizer.FinalInTime (s : Finalizer) (expectation : Json) : Prop :=
  s.run.finalOutput = "" ∨ ∃ output ∈ s.run.terminalEvents, output.direction = .output ∧
    output.occurredAt ≤ s.cutoff expectation ∧ output.payload.str? = some s.run.finalOutput

/-- No attempt begins on an expectation after a final output that came too late for it. -/
def Finalizer.prompt (s : Finalizer) : FinalizerEvent → Prop
  | .begin _ => ∀ expectation ∈ s.eligible, s.FinalInTime expectation
  | _ => True

theorem final_listed {expectation : Json} (inTime : s.FinalInTime expectation) :
    (s.judgeRequest expectation).FinalListed := by
  rcases inTime with none | ⟨output, isEvent, isOutput, before, same⟩
  · exact .inl none
  · refine .inr ⟨output, List.mem_filter.mpr ⟨isEvent, ?_⟩, same⟩
    rw [Bool.and_eq_true, decide_eq_true_eq, decide_eq_true_eq]
    exact ⟨isOutput, before⟩

/-- What holds besides where the expectations have distinct ids and are judged promptly. -/
structure RegularRun (start s : Finalizer) : Prop where
  recorded : Recorded start s
  shown : Judged JudgeRequest.FinalListed (fun item => item.request.FinalListed) s
  right : s.Right

/-- Every step may be taken, loses no last attempt and is prompt. -/
def Finalizer.regular (s : Finalizer) (event : FinalizerEvent) : Prop :=
  s.may event ∧ s.retried event ∧ s.prompt event

theorem concludes_run {start : Finalizer} (ids : (start.expectations.map eventId).Nodup)
    (run : Run Finalizer.step Finalizer.regular s t) (concludes : RegularRun start s) :
    RegularRun start t := by
  refine run.invariant (fun s event t held regular stepped => ?_) concludes
  obtain ⟨may, retried, prompt⟩ := regular
  have known : (s.expectations.map eventId).Nodup := by
    rw [held.recorded.expectations]
    exact ids
  refine ⟨recorded_step held.recorded stepped, ?_,
    right_step held.recorded.judged.once known held.right ⟨may, retried⟩ stepped⟩
  refine judged_step held.shown (fun k item begins eligible => ?_) (fun _ _ _ _ _ asked => asked) stepped
  subst begins
  exact final_listed (prompt item eligible)

theorem concludes_started (timeline : Timeline) (timeOrigin now : Int) (run : RuntimeRun)
    (maxAttempts : Nat) : RegularRun (.started timeline timeOrigin now run maxAttempts)
      (.started timeline timeOrigin now run maxAttempts) := by
  have recorded := recorded_started timeline timeOrigin now run maxAttempts
  exact ⟨recorded, ⟨recorded.judged.once, nofun, nofun, rfl, recorded.judged.adds⟩, nofun⟩

/-- **The finaliser's verdict.** Where the ids of the expectations are distinct, a scenario run that
is finalised has passed iff the runtime run succeeded and each expectation has one evaluation and this
one is passed. In every state the stored evaluations are of different expectations, about outputs up
to the cutoff only, the final output among them, and the counts add up to the number of
expectations. -/
theorem finalizer_verdict (timeline : Timeline) (timeOrigin now : Int) (runtimeRun : RuntimeRun)
    (maxAttempts : Nat) (s : Finalizer)
    (distinct : (timeline.expectationEvents.map eventId).Nodup)
    (run : Run Finalizer.step Finalizer.regular
      (.started timeline timeOrigin now runtimeRun maxAttempts) s) :
    (s.status.terminal → s.run.status.finished ∧ (s.status = .passed ↔ s.AllPassed)) ∧
      s.evaluatedIds.Nodup ∧
      (∀ evaluation ∈ s.evaluations,
        s.Grounded evaluation.request ∧ evaluation.request.FinalListed) ∧
      s.summary.passed + s.summary.failed + s.summary.inconclusive + s.summary.pending =
        timeline.expectationEvents.length := by
  have held := concludes_run distinct run (concludes_started ..)
  have recorded := held.recorded
  refine ⟨held.right, recorded.judged.once, fun evaluation isIn => ⟨?_, ?_⟩, ?_⟩
  · exact (recorded.grounded _).mpr (recorded.judged.stored evaluation isIn)
  · exact held.shown.stored evaluation isIn
  · rw [recorded.judged.adds, recorded.judged.total, recorded.expectations]
    rfl

/-! ### A timeline on which two expectations share an id -/

/-- There the evaluations are fewer than the expectations, however many there are. -/
theorem pending_of_shared {expectations : List Json} (shared : ¬ (expectations.map eventId).Nodup)
    (evaluations : List Evaluation) (status : ScenarioStatus) :
    (summarizeExpectations expectations evaluations status).pending ≠ 0 := by
  have counted := counted_le (byExpectation evaluations) (expectations.map eventId).dedup
  simp only [List.mem_dedup] at counted
  have fewer : (expectations.map eventId).dedup.length < (expectations.map eventId).length := by
    have sublist := List.dedup_sublist (expectations.map eventId)
    refine lt_of_le_of_ne sublist.length_le fun same => shared ?_
    exact List.dedup_eq_self.mp (sublist.eq_of_length same)
  rw [← count_by_status] at counted
  rw [List.length_map] at fewer
  simp only [summarizeExpectations, countStatus]
  omega

theorem passed_of_drop (dropped : dropAttempt s = some t) (passed : t.status = .passed) :
    s.status = .passed := by
  unfold dropAttempt finalizeExhausted at dropped
  split at dropped
  · cases dropped
  · obtain rfl := Option.some.inj dropped
    dsimp only at passed
    split at passed
    · split at passed
      · exact passed
      · cases passed
    · exact passed

theorem passed_of_step (once : s.evaluatedIds.Nodup) (shared : ¬ (s.expectations.map eventId).Nodup)
    {event : FinalizerEvent} (stepped : s.step event = some t) (passed : t.status = .passed) :
    s.status = .passed := by
  by_cases dropped : event = .drop
  · rw [dropped] at stepped
    exact passed_of_drop stepped passed
  · have retried : s.retried event := by
      cases event with
      | drop => exact absurd rfl dropped
      | _ => trivial
    cases moves_step once retried stepped with
    | rests isStatus _ => rw [← isStatus, passed]
    | cancels _ isCancelled =>
      rw [isCancelled] at passed
      cases passed
    | closes u same _ _ _ isStatus _ _ =>
      rw [isStatus] at passed
      unfold finalizeScenarioRun at passed
      dsimp only at passed
      split at passed
      · rename_i passes
        refine absurd passes.2.1 (pending_of_shared ?_ _ _)
        show ¬ (u.timeline.expectationEvents.map eventId).Nodup
        rw [same.timeline]
        exact shared
      · cases passed

/-- **A timeline on which two expectations share an id is never passed**, whatever the judge says. -/
theorem shared_id_never_passes {timeline : Timeline} {timeOrigin now : Int}
    {runtimeRun : RuntimeRun} {maxAttempts : Nat}
    (shared : ¬ (timeline.expectationEvents.map eventId).Nodup)
    (run : Run Finalizer.step anyStep (.started timeline timeOrigin now runtimeRun maxAttempts) s) :
    s.status ≠ .passed := by
  have held := @Run.invariant _ _ _ _
    (fun s : Finalizer => Recorded (.started timeline timeOrigin now runtimeRun maxAttempts) s ∧
      s.status ≠ .passed)
    (fun s event t held _ stepped => by
      refine ⟨recorded_step held.1 stepped, fun passed => ?_⟩
      apply held.2
      refine passed_of_step held.1.judged.once ?_ stepped passed
      rw [held.1.expectations]
      exact shared) _ _ run ⟨recorded_started _ _ _ _ _, nofun⟩
  exact held.2

/-! ### Short runs -/

instance (s : Finalizer) (expectation : Json) : Decidable (s.FinalInTime expectation) :=
  @instDecidableOr _ _ (instDecidableEqString _ _) (List.decidableBEx _ _)

/-- A claim, the start of an attempt and an answer of the judge: nothing is lost. -/
def FinalizerEvent.plain : FinalizerEvent → Bool
  | .claim | .begin _ | .judged .. => true
  | .drop | .wake | .runtime _ | .tick _ => false

/-- A list of plain events, executed. -/
def followPlain (s : Finalizer) (events : List FinalizerEvent) : Option Finalizer :=
  follow Finalizer.step (fun s event => event.plain = true ∧
    ∀ expectation ∈ s.eligible, s.FinalInTime expectation) s events

theorem run_of_plain {events : List FinalizerEvent} (followed : followPlain s events = some t) :
    Run Finalizer.step Finalizer.regular s t := by
  refine (run_of_follow followed).mono fun s event may => ?_
  obtain ⟨plain, inTime⟩ := may
  cases event with
  | begin => exact ⟨trivial, trivial, inTime⟩
  | claim | judged => exact ⟨trivial, trivial, trivial⟩
  | drop | wake | runtime | tick => cases plain

/-- An expectation of a timeline. -/
def expectationAt (id : String) (atMs : Int) (expectation : String) : Json :=
  obj [("id", str id), ("lane_id", str "expected.semantic"), ("at_ms", num atMs),
    ("expectation", str expectation)]

/-- The timeline of two expectations, as it is normalized. -/
def twoExpectations (first second : String) : Option Timeline :=
  (normalizeTimeline (fun _ payload _ => .ok payload)
    (obj [("events", arr [expectationAt first 1000 "The water is hot.",
      expectationAt second 2000 "The beans are ground."])]) 60000).toOption

/-- A run that said both. -/
def brewedRun : RuntimeRun where
  status := .succeeded
  finalOutput := "Done."
  exitReason := ""
  terminalEvents := [⟨1, .output, 500000, str "The water is hot."⟩,
    ⟨2, .output, 1500000, str "The beans are ground."⟩]

/-- A run that says both in its first second and sums up at a given time. -/
def summedUpRun (doneAt : Int) : RuntimeRun where
  status := .succeeded
  finalOutput := "Both are done."
  exitReason := ""
  terminalEvents := [⟨1, .output, 500000, str "The water is hot."⟩,
    ⟨2, .output, 700000, str "The beans are ground."⟩, ⟨3, .output, doneAt, str "Both are done."⟩]

/-- Its finaliser. -/
def brewedFinalizer (timeline : Timeline) (doneAt : Int) : Finalizer :=
  .started timeline 0 2000000 (summedUpRun doneAt) 3

/-- One attempt after the other, and the judge passes what it is asked. -/
def passOne (k : Nat) : List FinalizerEvent := [.claim, .begin k, .judged k (some .passed)]

theorem water_and_beans_verdict : ∃ timeline s, twoExpectations "water" "beans" = some timeline ∧
    Run Finalizer.step Finalizer.regular (brewedFinalizer timeline 900000) s ∧
    s.status = .passed ∧ s.AllPassed := by
  have ids : (twoExpectations "water" "beans").any (fun timeline =>
      decide (timeline.expectationEvents.map eventId).Nodup) = true := by
    decide +kernel
  obtain ⟨timeline, s, isTimeline, followed, passed⟩ := checked_run (show
    ((twoExpectations "water" "beans").bind fun timeline =>
      followPlain (brewedFinalizer timeline 900000) (passOne 0 ++ passOne 1)).any
      (fun s => decide (s.status = .passed)) = true by
    decide +kernel)
  have isPassed := of_decide_eq_true passed
  rw [isTimeline] at ids
  have verdict := finalizer_verdict timeline 0 2000000 (summedUpRun 900000) 3 s (of_decide_eq_true ids)
    (run_of_plain followed)
  have terminal : s.status.terminal = true := by
    rw [isPassed]
    rfl
  exact ⟨timeline, s, isTimeline, run_of_plain followed, isPassed,
    (verdict.1 terminal).2.mp isPassed⟩

/-- Two expectations with one id: one evaluation is stored for both, a passed one, and the scenario
run has failed. -/
theorem shared_id_fails : ∃ timeline s, twoExpectations "brew" "brew" = some timeline ∧
    Run Finalizer.step Finalizer.regular (brewedFinalizer timeline 900000) s ∧
    s.status.terminal = true ∧ ¬ (s.status = .passed ↔ s.AllPassed) := by
  obtain ⟨timeline, s, isTimeline, followed, check⟩ := checked_run (show
    ((twoExpectations "brew" "brew").bind fun timeline =>
      followPlain (brewedFinalizer timeline 900000) (passOne 0)).any
      (fun s => decide (s.status = .failed) && decide (s.run.status = .succeeded ∧
        ∀ item ∈ s.expectations, statusesOf s.evaluations item = [.passed])) = true by
    decide +kernel)
  rw [Bool.and_eq_true, decide_eq_true_eq, decide_eq_true_eq] at check
  refine ⟨timeline, s, isTimeline, run_of_plain followed, ?_, fun right => ?_⟩
  · rw [check.1]
    rfl
  · have passed : s.status = .passed := right.mpr check.2
    rw [check.1] at passed
    cases passed

/-- A run sums up after the cutoff of its first expectation, and the judge of this one is shown it. -/
theorem late_output_judged : ∃ timeline s, twoExpectations "water" "beans" = some timeline ∧
    (timeline.expectationEvents.map eventId).Nodup ∧
    Run Finalizer.step (fun s event => s.may event ∧ s.retried event)
      (brewedFinalizer timeline 1800000) s ∧
    ∃ evaluation ∈ s.evaluations, evaluation.request.finalOutput = "Both are done." ∧
      ∀ output ∈ s.run.terminalEvents, output.occurredAt ≤ evaluation.request.cutoff →
        output.payload.str? ≠ some "Both are done." := by
  have checked : ((twoExpectations "water" "beans").bind fun timeline =>
      (follow Finalizer.step (fun _ event => event.plain = true) (brewedFinalizer timeline 1800000)
        (passOne 0)).map fun s => (timeline, s)).any (fun (timeline, s) =>
      decide (timeline.expectationEvents.map eventId).Nodup && s.evaluations.any fun evaluation =>
        evaluation.request.finalOutput == "Both are done." && s.run.terminalEvents.all fun output =>
          decide (output.occurredAt ≤ evaluation.request.cutoff →
            output.payload.str? ≠ some "Both are done.")) = true := by
    decide +kernel
  obtain ⟨timeline, ⟨_, s⟩, isTimeline, found, check⟩ := checked_run checked
  obtain ⟨t, followed, same⟩ := Option.map_eq_some_iff.mp found
  obtain ⟨rfl, rfl⟩ := Prod.mk.inj same
  simp only [Bool.and_eq_true, List.any_eq_true, List.all_eq_true, decide_eq_true_eq, beq_iff_eq]
    at check
  obtain ⟨distinct, evaluation, stored, shown, late⟩ := check
  refine ⟨_, _, isTimeline, distinct, (run_of_follow followed).mono fun s event plain => ?_,
    evaluation, stored, shown, late⟩
  cases event with
  | claim | begin | judged => exact ⟨trivial, trivial⟩
  | drop | wake | runtime | tick => cases plain

/-- **The verdict goes wrong** where two expectations share an id, and the judge sees what came after
the cutoff where the final output did. -/
theorem verdict_misses :
    (∃ timeline s, twoExpectations "brew" "brew" = some timeline ∧
      Run Finalizer.step (fun s event => s.may event ∧ s.retried event)
        (brewedFinalizer timeline 900000) s ∧
      s.status.terminal = true ∧ ¬ (s.status = .passed ↔ s.AllPassed)) ∧
    ∃ timeline s, twoExpectations "water" "beans" = some timeline ∧
      (timeline.expectationEvents.map eventId).Nodup ∧
      Run Finalizer.step (fun s event => s.may event ∧ s.retried event)
        (brewedFinalizer timeline 1800000) s ∧
      ∃ evaluation ∈ s.evaluations, evaluation.request.finalOutput = "Both are done." ∧
        ∀ output ∈ s.run.terminalEvents, output.occurredAt ≤ evaluation.request.cutoff →
          output.payload.str? ≠ some "Both are done." := by
  obtain ⟨timeline, s, isTimeline, run, wrong⟩ := shared_id_fails
  exact ⟨⟨timeline, s, isTimeline, run.mono fun _ _ regular => ⟨regular.1, regular.2.1⟩, wrong⟩,
    late_output_judged⟩

end Psop.SkillTests
