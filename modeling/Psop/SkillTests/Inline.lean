import Psop.SkillTests.Finalizer

/-!
The evaluation of a scenario run in one pass, which is used where no worker runs.

It judges every expectation of a finished run at once, where the finaliser judges one in each claim of
its job. **`inline_agrees`**: on a run that was not cancelled both come to the same status and the same
counts. A cancelled run is cancelled for the finaliser and failed for the single pass, which sets the
status a second time.
-/
namespace Psop.SkillTests

open Json
open Psop.Runtime (RunStatus)

/-- A judge: what it answers to a request, or `none` where the call raises. -/
abbrev Judge := JudgeRequest → Option JudgeStatus

/-- An answer, where a call that raises is inconclusive. -/
def Judge.answer (judge : Judge) (request : JudgeRequest) : JudgeStatus :=
  (judge request).getD .inconclusive

/-- The request of the single pass, which takes the outputs first. -/
def inlineRequest (s : Finalizer) (outputEvents : List TranscriptEvent) (expectation : Json) :
    JudgeRequest where
  expectation := expectation
  scopedOutputs := outputEvents.filter fun item => decide (item.occurredAt ≤ s.cutoff expectation)
  finalOutput := s.run.finalOutput
  runStatus := s.run.status
  cutoff := s.cutoff expectation

/-- `_evaluate_expectation` -/
def evaluateExpectation (judge : Judge) (request : JudgeRequest) : Evaluation :=
  ⟨request, judge.answer request⟩

/-- `summary[status] += 1` -/
def Summary.count (status : JudgeStatus) (summary : Summary) : Summary :=
  match status with
  | .passed => { summary with passed := summary.passed + 1 }
  | .failed => { summary with failed := summary.failed + 1 }
  | .inconclusive => { summary with inconclusive := summary.inconclusive + 1 }

/-- The loop over the expectations. -/
def evaluateAll (judge : Judge) (s : Finalizer) (outputEvents : List TranscriptEvent) :
    Summary → List Json → Summary × List Evaluation
  | summary, [] => (summary, [])
  | summary, expectation :: expectations =>
    if ¬ s.run.status.finished ∧ s.now < s.cutoff expectation then
      evaluateAll judge s outputEvents { summary with pending := summary.pending + 1 } expectations
    else
      let evaluation := evaluateExpectation judge (inlineRequest s outputEvents expectation)
      let (last, evaluations) :=
        evaluateAll judge s outputEvents (summary.count evaluation.status) expectations
      (last, evaluation :: evaluations)

/-- The status that the counts of the single pass lead to. -/
def inlineStatus (summary : Summary) (run : RuntimeRun) (status : ScenarioStatus) : ScenarioStatus :=
  if 0 < summary.pending ∨ ¬ run.status.finished then
    if status = .failed ∨ status = .cancelled then status else .running
  else if 0 < summary.failed ∨ 0 < summary.inconclusive ∨ run.status ≠ .succeeded then .failed
  else .passed

/-- `_evaluate_run_inline`. An expectation that is evaluated twice violates a unique constraint. -/
def evaluateRunInline (judge : Judge) (s : Finalizer) : Option Finalizer :=
  let status := (syncScenarioRun s.run.status
    { status := s.status, driverStatus := .completed }).status
  let outputEvents := s.run.terminalEvents.filter fun item => decide (item.direction = .output)
  let start : Summary := {
    total := s.expectations.length
    passed := 0
    failed := 0
    inconclusive := 0
    pending := 0
    status := status }
  let (summary, evaluations) := evaluateAll judge s outputEvents start s.expectations
  let last := inlineStatus summary s.run status
  if (evaluations.map Evaluation.expectationId).Nodup then
    some { s with
      status := last
      summary := { summary with status := last }
      evaluations := evaluations }
  else none

/-- The counts of a summary: the expectations, then the passed, failed, inconclusive and pending ones. -/
def Summary.counts (summary : Summary) : List Nat :=
  [summary.total, summary.passed, summary.failed, summary.inconclusive, summary.pending]

/-- The steps in which the judge gives its answers, no last attempt is lost and clocks do not go
back. -/
def Judge.answers (judge : Judge) (s : Finalizer) (event : FinalizerEvent) : Prop :=
  s.may event ∧ s.retried event ∧ ∀ k result request, event = .judged k result →
    s.attempts[k]? = some (.judging request) → result = judge request

/-! ### The single pass -/

variable {judge : Judge} {start s t : Finalizer}

/-- The evaluation of an expectation of a scenario run whose runtime run has ended. -/
def Finalizer.evaluation (s : Finalizer) (judge : Judge) (expectation : Json) : Evaluation :=
  evaluateExpectation judge (s.judgeRequest expectation)

/-- How many expectations get this answer. -/
def Finalizer.answered (s : Finalizer) (judge : Judge) (status : JudgeStatus) : Nat :=
  s.expectations.countP fun item => decide (judge.answer (s.judgeRequest item) = status)

/-- The summary of a scenario run all of whose expectations are judged. -/
def Finalizer.complete (s : Finalizer) (judge : Judge) (status : ScenarioStatus) : Summary where
  total := s.expectations.length
  passed := s.answered judge .passed
  failed := s.answered judge .failed
  inconclusive := s.answered judge .inconclusive
  pending := 0
  status := status

/-- Outputs are taken before or after the cutoff is looked at. -/
theorem inline_request_eq (s : Finalizer) (expectation : Json) :
    inlineRequest s (s.run.terminalEvents.filter fun item => decide (item.direction = .output))
      expectation = s.judgeRequest expectation := by
  rw [inlineRequest, Finalizer.judgeRequest, List.filter_filter]
  congr 1
  apply List.filter_congr
  intro item _
  exact Bool.and_comm ..

theorem evaluate_all_spec (finished : s.run.status.finished) (summary : Summary)
    (expectations : List Json) :
    evaluateAll judge s (s.run.terminalEvents.filter fun item => decide (item.direction = .output))
      summary expectations =
    ({ summary with
        passed := summary.passed + expectations.countP fun item =>
          decide (judge.answer (s.judgeRequest item) = .passed)
        failed := summary.failed + expectations.countP fun item =>
          decide (judge.answer (s.judgeRequest item) = .failed)
        inconclusive := summary.inconclusive + expectations.countP fun item =>
          decide (judge.answer (s.judgeRequest item) = .inconclusive) },
      expectations.map (s.evaluation judge)) := by
  induction expectations generalizing summary with
  | nil => rfl
  | cons expectation expectations ih =>
    rw [evaluateAll, if_neg (fun late => late.1 finished)]
    dsimp only
    rw [ih, inline_request_eq]
    simp only [List.countP_cons, List.map_cons, Finalizer.evaluation, evaluateExpectation]
    cases judge.answer (s.judgeRequest expectation) <;>
      simp [Summary.count, Nat.add_assoc, Nat.add_comm 1]

theorem evaluation_ids (s : Finalizer) (judge : Judge) (expectations : List Json) :
    (expectations.map (s.evaluation judge)).map Evaluation.expectationId =
      expectations.map eventId := by
  rw [List.map_map]
  rfl

/-- **The single pass** over a run that has ended. -/
theorem evaluate_inline_spec (finished : s.run.status.finished)
    (ids : (s.expectations.map eventId).Nodup) : ∃ status,
    evaluateRunInline judge s = some { s with
      status := inlineStatus (s.complete judge status) s.run status
      summary := { s.complete judge status with
        status := inlineStatus (s.complete judge status) s.run status }
      evaluations := s.expectations.map (s.evaluation judge) } := by
  refine ⟨(syncScenarioRun s.run.status { status := s.status, driverStatus := .completed }).status, ?_⟩
  rw [evaluateRunInline, evaluate_all_spec finished]
  simp only [Nat.zero_add]
  rw [if_pos (by rw [evaluation_ids]; exact ids)]
  rfl

/-! ### What the finaliser comes to -/

theorem evaluation_inj (ids : (start.expectations.map eventId).Nodup) {x y : Json}
    (isX : x ∈ start.expectations) (isY : y ∈ start.expectations)
    (same : (start.evaluation judge x).expectationId = (start.evaluation judge y).expectationId) :
    x = y :=
  List.inj_on_of_nodup_map ids isX isY same

/-- Where nothing is missing, the stored evaluations are those of the single pass in some order. -/
theorem stored_perm {evaluations : List Evaluation}
    (ids : (start.expectations.map eventId).Nodup)
    (once : (evaluations.map Evaluation.expectationId).Nodup)
    (stored : ∀ item ∈ evaluations, ∃ x ∈ start.expectations, item = start.evaluation judge x)
    (covered : ∀ x ∈ start.expectations, eventId x ∈ evaluations.map Evaluation.expectationId) :
    evaluations.Perm (start.expectations.map (start.evaluation judge)) := by
  have distinct : (start.expectations.map (start.evaluation judge)).Nodup := by
    apply List.Nodup.of_map Evaluation.expectationId
    rw [evaluation_ids]
    exact ids
  refine (List.perm_ext_iff_of_nodup (once.of_map _) distinct).mpr fun item => ?_
  constructor
  · intro isIn
    obtain ⟨x, known, rfl⟩ := stored item isIn
    exact List.mem_map_of_mem known
  · intro isIn
    obtain ⟨x, known, rfl⟩ := List.mem_map.mp isIn
    obtain ⟨other, isOther, same⟩ := List.mem_map.mp (covered x known)
    obtain ⟨y, isY, rfl⟩ := stored other isOther
    rwa [evaluation_inj ids known isY same.symm]

theorem count_stored {evaluations : List Evaluation}
    (perm : evaluations.Perm (start.expectations.map (start.evaluation judge)))
    (once : (evaluations.map Evaluation.expectationId).Nodup) (status : JudgeStatus) :
    countStatus start.expectations evaluations status = start.answered judge status := by
  rw [count_of_distinct _ _ once, perm.countP_eq, List.countP_map, Finalizer.answered]
  apply List.countP_congr
  intro x known
  have isKnown : (start.evaluation judge x).expectationId ∈ start.expectations.map eventId :=
    List.mem_map_of_mem known
  rw [Function.comp_apply, decide_eq_true isKnown, Bool.true_and]
  rfl

theorem summary_stored {evaluations : List Evaluation}
    (perm : evaluations.Perm (start.expectations.map (start.evaluation judge)))
    (ids : (start.expectations.map eventId).Nodup)
    (once : (evaluations.map Evaluation.expectationId).Nodup) (status : ScenarioStatus) :
    summarizeExpectations start.expectations evaluations status = start.complete judge status := by
  have nothing := nothing_pending ids once (fun x known => by
    rw [(perm.map _).mem_iff, evaluation_ids]
    exact List.mem_map_of_mem known) status
  rw [summarizeExpectations] at nothing ⊢
  simp only [count_stored perm once] at nothing ⊢
  rw [nothing]
  rfl

/-- Where the finaliser closes a scenario run, the status is the one of the single pass. -/
theorem finalize_complete (finished : s.run.status.finished) (status : ScenarioStatus)
    (summarized : s.summary = s.complete judge status) :
    (finalizeScenarioRun s).status = inlineStatus (s.complete judge status) s.run status ∧
      (finalizeScenarioRun s).summary.counts = (s.complete judge status).counts := by
  unfold finalizeScenarioRun inlineStatus
  rw [summarized]
  rw [if_neg (show ¬ (0 < (s.complete judge status).pending ∨ ¬ s.run.status.finished = true) by
    rintro (some | running)
    · exact absurd some (Nat.lt_irrefl 0)
    · exact running finished)]
  dsimp only
  split
  · rename_i passes
    rw [if_neg]
    · exact ⟨rfl, rfl⟩
    · rintro (failed | inconclusive | notSucceeded)
      · exact absurd passes.2.2.1 (Nat.pos_iff_ne_zero.mp failed)
      · exact absurd passes.2.2.2 (Nat.pos_iff_ne_zero.mp inconclusive)
      · exact notSucceeded passes.1
  · rename_i fails
    have rejected : 0 < (s.complete judge status).failed ∨
        0 < (s.complete judge status).inconclusive ∨ s.run.status ≠ .succeeded := by
      by_contra none
      rw [not_or, not_or, Nat.not_lt, Nat.not_lt, Nat.le_zero, Nat.le_zero, not_not] at none
      exact fails ⟨none.2.2, rfl, none.1, none.2.1⟩
    rw [if_pos rejected]
    exact ⟨rfl, rfl⟩

/-- What holds along a run in which the judge gives its answers. -/
structure JudgedThroughout (judge : Judge) (start s : Finalizer) : Prop where
  judged : Judged (fun request => ∃ x ∈ start.expectations, request = start.judgeRequest x)
    (fun item => ∃ x ∈ start.expectations, item = start.evaluation judge x) s
  same : Same start s
  /-- A closed scenario run has the counts and the status of the single pass. -/
  closed : s.status.terminal → ∃ status,
    s.status = inlineStatus (start.complete judge status) start.run status ∧
      s.summary.counts = (start.complete judge status).counts

theorem Same.trans {u : Finalizer} (first : Same s t) (second : Same t u) : Same s u :=
  ⟨second.timeline.trans first.timeline, second.timeOrigin.trans first.timeOrigin,
    second.run.trans first.run⟩

theorem Same.expectations (same : Same s t) : t.expectations = s.expectations := by
  rw [Finalizer.expectations, same.timeline]

theorem Same.judgeRequest (same : Same s t) (expectation : Json) :
    t.judgeRequest expectation = s.judgeRequest expectation := by
  have cutoff : t.cutoff expectation = s.cutoff expectation := by
    rw [Finalizer.cutoff, Finalizer.scenarioTime, same.timeOrigin]
    rfl
  rw [Finalizer.judgeRequest, same.run, cutoff]
  rfl

theorem Same.complete (same : Same s t) (status : ScenarioStatus) :
    t.complete judge status = s.complete judge status := by
  simp only [Finalizer.complete, Finalizer.answered, same.expectations, same.judgeRequest]

/-- The runtime run has ended, so nothing changes it. -/
theorem same_of_answers {event : FinalizerEvent} (finished : s.run.status.finished)
    (answers : judge.answers s event) (stepped : s.step event = some t) : Same s t := by
  by_cases isRuntime : ∃ run, event = .runtime run
  · obtain ⟨run, rfl⟩ := isRuntime
    obtain rfl := Option.some.inj stepped
    have becomes : s.run.Becomes run := answers.1
    rw [RuntimeRun.Becomes, if_pos finished] at becomes
    exact ⟨rfl, rfl, becomes⟩
  · exact same_step (not_exists.mp isRuntime) stepped

theorem agrees_step {event : FinalizerEvent} (finished : start.run.status.finished)
    (notCancelled : start.run.status ≠ .cancelled) (ids : (start.expectations.map eventId).Nodup)
    (agrees : JudgedThroughout judge start s) (answers : judge.answers s event)
    (stepped : s.step event = some t) : JudgedThroughout judge start t := by
  have same := same_of_answers (by rw [agrees.same.run]; exact finished) answers stepped
  have judged := judged_step agrees.judged (fun _ x _ eligible => ?_)
    (fun k result request isJudged isAsked asked => ?_) stepped
  · refine ⟨judged, agrees.same.trans same, fun terminal => ?_⟩
    cases moves_step agrees.judged.once answers.2.1 stepped with
    | rests isStatus kept =>
      rw [isStatus] at terminal
      rw [isStatus, (kept terminal).1]
      exact agrees.closed terminal
    | cancels cancelled _ => exact absurd (agrees.same.run ▸ cancelled) notCancelled
    | closes u kept once covered isFinished isStatus isSummary stored =>
      have toStart := agrees.same.trans kept
      have all : ∀ x ∈ start.expectations, eventId x ∈ u.evaluations.map Evaluation.expectationId := by
        intro x known
        by_contra notYet
        have isMissing : x ∈ u.missing :=
          List.mem_filter.mpr ⟨toStart.expectations ▸ known, decide_eq_true notYet⟩
        rw [covered] at isMissing
        cases isMissing
      have perm := stored_perm ids once (stored ▸ judged.stored) all
      have complete : u.summarized.summary = u.summarized.complete judge u.status := by
        show summarizeExpectations u.expectations u.evaluations u.status = u.complete judge u.status
        rw [toStart.complete, toStart.expectations]
        exact summary_stored perm ids once u.status
      have outcome := finalize_complete (s := u.summarized) isFinished u.status complete
      refine ⟨u.status, ?_, ?_⟩
      · rw [isStatus, outcome.1, ← toStart.complete, ← toStart.run]
        rfl
      · rw [isSummary, outcome.2, ← toStart.complete]
        rfl
  · exact ⟨x, agrees.same.expectations ▸ eligible_known eligible, agrees.same.judgeRequest x⟩
  · obtain ⟨x, known, rfl⟩ := asked
    refine ⟨x, known, ?_⟩
    rw [answers.2.2 k result _ isJudged isAsked]
    rfl

/-! ### The finaliser completes -/

/-- The scenario run is open and its job may be claimed. -/
structure Ready (s : Finalizer) : Prop where
  isOpen : ¬ s.status.terminal = true
  finished : s.run.status.finished
  waits : Jobs.Queue.waits s.job.status
  left : s.job.attemptNo < s.job.maxAttempts

/-- What a round of the finaliser lowers: the missing evaluations, then the attempts left for one. -/
def Finalizer.toDo (s : Finalizer) : Nat :=
  s.missing.length * (s.job.maxAttempts + 1) + (s.job.maxAttempts - s.job.attemptNo)

theorem open_spec (isOpen : ¬ s.status.terminal = true) (finished : s.run.status.finished) :
    (∃ t, openFinalizer s = (t, none) ∧ t.status.terminal) ∨
      ∃ x ∈ s.missing, openFinalizer s = (s, some (s.judgeRequest x)) := by
  unfold openFinalizer
  rw [if_neg isOpen]
  split
  · exact .inl ⟨_, rfl, rfl⟩
  · cases eligible : s.eligible with
    | some x => exact .inr ⟨x, List.mem_of_find?_eq_some eligible, rfl⟩
    | none =>
      refine .inl ⟨_, rfl, ?_⟩
      have covered : s.missing = [] := by
        refine List.eq_nil_iff_forall_not_mem.mpr fun x isMissing => ?_
        have notYet := List.find?_eq_none.mp eligible x isMissing
        rw [finished, Bool.true_or] at notYet
        exact notYet rfl
      unfold settleFinalizer finalizeScenarioRun
      dsimp only
      rw [if_pos ⟨covered, finished⟩]
      split <;> rfl

theorem settle_spec (s : Finalizer) : (settleFinalizer s).status.terminal ∨
    (settleFinalizer s).status = s.status ∧ (settleFinalizer s).job = s.job.again ∧
      (settleFinalizer s).evaluations = s.evaluations := by
  unfold settleFinalizer finalizeScenarioRun
  dsimp only
  split
  · split
    · exact .inl rfl
    · exact .inl rfl
  · exact .inr ⟨rfl, rfl, rfl⟩

/-- A stored evaluation leaves fewer missing. -/
theorem missing_store {x : Json} (isMissing : x ∈ s.missing) (evaluation : Evaluation)
    (isOf : evaluation.expectationId = eventId x) :
    (Finalizer.missing { s with evaluations := s.evaluations ++ [evaluation] }).length <
      s.missing.length := by
  have fewer : Finalizer.missing { s with evaluations := s.evaluations ++ [evaluation] } =
      s.missing.filter fun item => decide (eventId item ≠ eventId x) := by
    simp only [Finalizer.missing, Finalizer.evaluatedIds, List.filter_filter, List.map_append,
      List.map_singleton, List.mem_append, List.mem_singleton, isOf]
    apply List.filter_congr
    intro item _
    by_cases same : eventId item = eventId x <;> simp [same]
  rw [fewer]
  exact List.length_filter_lt_length_iff_exists.mpr ⟨x, isMissing, by simp⟩

/-- The answer to the last attempt, or a result, is stored. -/
theorem store_spec (isOpen : ¬ s.status.terminal = true) (finished : s.run.status.finished)
    (running : s.job.status = .running) (left : 0 < s.job.maxAttempts) {x : Json}
    (isMissing : x ∈ s.missing) (status : JudgeStatus) :
    let t := closeFinalizer (s.judgeRequest x) status s
    t.status.terminal ∨ Ready t ∧ t.toDo < s.missing.length * (s.job.maxAttempts + 1) := by
  intro t
  have notYet : (s.judgeRequest x).expectationId ∉ s.evaluatedIds :=
    of_decide_eq_true (List.mem_filter.mp isMissing).2
  have isStored : t = settleFinalizer
      { s with evaluations := s.evaluations ++ [⟨s.judgeRequest x, status⟩] } := by
    show closeFinalizer (s.judgeRequest x) status s = _
    rw [closeFinalizer, if_neg (not_not.mpr running), if_neg isOpen, if_neg notYet]
  have same := same_close (s.judgeRequest x) status s
  have fewer := missing_store isMissing ⟨s.judgeRequest x, status⟩ rfl
  rcases settle_spec { s with evaluations := s.evaluations ++ [⟨s.judgeRequest x, status⟩] } with
    closed | ⟨isStatus, isJob, stored⟩
  · rw [← isStored] at closed
    exact .inl closed
  · rw [← isStored] at isStatus isJob stored
    refine .inr ⟨⟨by rw [isStatus]; exact isOpen, same.run ▸ finished, ?_, ?_⟩, ?_⟩
    · rw [isJob]
      rfl
    · rw [isJob]
      exact left
    · have nowMissing : t.missing = Finalizer.missing
          { s with evaluations := s.evaluations ++ [⟨s.judgeRequest x, status⟩] } := by
        rw [Finalizer.missing, Finalizer.evaluatedIds, stored, same.expectations]
        rfl
      rw [Finalizer.toDo, isJob, nowMissing]
      show _ * (s.job.maxAttempts + 1) + (s.job.maxAttempts - 0) < _
      calc _ < (Finalizer.missing { s with
              evaluations := s.evaluations ++ [⟨s.judgeRequest x, status⟩] }).length *
              (s.job.maxAttempts + 1) + (s.job.maxAttempts + 1) :=
            Nat.add_lt_add_left (Nat.lt_succ_of_le (Nat.sub_le ..)) _
        _ = _ := (Nat.succ_mul ..).symm
        _ ≤ _ := Nat.mul_le_mul_right _ fewer

theorem answers_claim : judge.answers s .claim := ⟨trivial, trivial, nofun⟩

theorem answers_begin (k : Nat) : judge.answers s (.begin k) := ⟨trivial, trivial, nofun⟩

theorem answers_judged {k : Nat} {request : JudgeRequest}
    (inFlight : s.attempts[k]? = some (.judging request)) :
    judge.answers s (.judged k (judge request)) := by
  refine ⟨trivial, trivial, fun j result other isJudged isOther => ?_⟩
  cases isJudged
  rw [inFlight] at isOther
  cases isOther
  rfl

/-- The answer to a running attempt. -/
theorem answer_spec (isOpen : ¬ s.status.terminal = true) (finished : s.run.status.finished)
    (running : s.job.status = .running) (begun : 0 < s.job.attemptNo)
    (bounded : s.job.attemptNo ≤ s.job.maxAttempts) {x : Json} (isMissing : x ∈ s.missing) (k : Nat)
    (result : Option JudgeStatus) : ∃ t, answerAttempt k result (s.judgeRequest x) s = some t ∧
    (t.status.terminal ∨ Ready t ∧ t.toDo <
      s.missing.length * (s.job.maxAttempts + 1) + (s.job.maxAttempts - (s.job.attemptNo - 1))) := by
  have closes (status : JudgeStatus) :
      ∃ t, some ((closeFinalizer (s.judgeRequest x) status s).setAttempt k .over) = some t ∧
        (t.status.terminal ∨ Ready t ∧ t.toDo < s.missing.length * (s.job.maxAttempts + 1) +
          (s.job.maxAttempts - (s.job.attemptNo - 1))) := by
    refine ⟨_, rfl, ?_⟩
    rcases store_spec isOpen finished running (begun.trans_le bounded) isMissing status with
      closed | ⟨ready, less⟩
    · exact .inl closed
    · exact .inr ⟨⟨ready.isOpen, ready.finished, ready.waits, ready.left⟩,
        less.trans_le (Nat.le_add_right ..)⟩
  cases result with
  | some status => exact closes status
  | none =>
    rw [answerAttempt]
    split
    · rename_i left
      have retried : s.job.exhausted = false := by
        rw [Jobs.Held.exhausted, decide_eq_false (Nat.not_le.mpr left), Bool.and_false]
      have dropped : dropAttempt s = some { s with job := s.job.drop } := by
        rw [dropAttempt, if_neg (not_not.mpr running), retried]
        rfl
      have isJob : s.job.drop = { s.job with status := .retryableFailed } := by
        rw [Jobs.Held.drop, if_pos left]
      rw [dropped, isJob]
      refine ⟨_, rfl, .inr ⟨⟨isOpen, finished, rfl, left⟩, ?_⟩⟩
      show s.missing.length * (s.job.maxAttempts + 1) + (s.job.maxAttempts - s.job.attemptNo) < _
      omega
    · exact closes .inconclusive

/-- **A round of the finaliser**: it closes the scenario run or leaves less to do. -/
theorem round (judge : Judge) (ready : Ready s) : ∃ t, Run Finalizer.step judge.answers s t ∧
    (t.status.terminal ∨ Ready t ∧ t.toDo < s.toDo) := by
  let k := s.attempts.length
  let claimed : Finalizer := { s with
    job := { s.job with status := .running, attemptNo := s.job.attemptNo + 1 }
    attempts := s.attempts ++ [.claimed] }
  have claims : s.step .claim = some claimed := by
    rw [Finalizer.step, Jobs.Held.claim, if_pos ⟨ready.waits, ready.left⟩]
    rfl
  have first : Run Finalizer.step judge.answers s claimed := .single answers_claim claims
  have atK : claimed.attempts[k]? = some .claimed := List.getElem?_concat_length ..
  rcases open_spec (s := claimed) ready.isOpen ready.finished with
    ⟨t, opened, closed⟩ | ⟨x, isMissing, opened⟩
  · refine ⟨t.setAttempt k .over, first.tail (e := .begin k) (answers_begin k) ?_, .inl closed⟩
    rw [Finalizer.step, atK]
    dsimp only
    rw [opened]
  · let asked := claimed.setAttempt k (.judging (claimed.judgeRequest x))
    have second : Run Finalizer.step judge.answers s asked := by
      refine first.tail (e := .begin k) (answers_begin k) ?_
      rw [Finalizer.step, atK]
      dsimp only
      rw [opened]
    have inFlight : asked.attempts[k]? = some (.judging (claimed.judgeRequest x)) :=
      List.getElem?_set_self (List.getElem?_eq_some_iff.mp atK).1
    obtain ⟨t, answered, outcome⟩ := answer_spec (s := asked) ready.isOpen ready.finished rfl
      (Nat.succ_pos _) ready.left isMissing k (judge (claimed.judgeRequest x))
    refine ⟨t, second.tail (answers_judged inFlight) ?_, outcome⟩
    rw [Finalizer.step, inFlight]
    exact answered

theorem completes (judge : Judge) (ready : Ready s) :
    ∃ t, Run Finalizer.step judge.answers s t ∧ t.status.terminal := by
  induction isToDo : s.toDo using Nat.strong_induction_on generalizing s with
  | _ n ih =>
    obtain ⟨t, run, closed | ⟨next, less⟩⟩ := round judge ready
    · exact ⟨t, run, closed⟩
    · obtain ⟨u, later, closed⟩ := ih t.toDo (isToDo ▸ less) next rfl
      exact ⟨u, run.trans later, closed⟩

/-! ### The comparison -/

/-- The status of a run that has ended is decided by the counts. -/
theorem inline_status_eq (finished : start.run.status.finished) (status other : ScenarioStatus) :
    inlineStatus (start.complete judge status) start.run status =
      inlineStatus (start.complete judge other) start.run other := by
  have judgedAll (status : ScenarioStatus) :
      ¬ (0 < (start.complete judge status).pending ∨ ¬ start.run.status.finished = true) := by
    rintro (some | running)
    · exact absurd some (Nat.lt_irrefl 0)
    · exact running finished
  rw [inlineStatus, inlineStatus, if_neg (judgedAll status), if_neg (judgedAll other)]
  rfl

theorem inline_status_cancelled (cancelled : start.run.status = .cancelled) (status : ScenarioStatus) :
    inlineStatus (start.complete judge status) start.run status = .failed := by
  rw [inlineStatus, if_neg, if_pos]
  · exact .inr (.inr (by rw [cancelled]; exact nofun))
  · rintro (some | running)
    · exact absurd some (Nat.lt_irrefl 0)
    · exact running (by rw [cancelled]; rfl)

/-- A cancelled run ends in the first attempt. -/
theorem cancelled_completes (judge : Judge) (ready : Ready s) (cancelled : s.run.status = .cancelled) :
    ∃ t, Run Finalizer.step judge.answers s t ∧ t.status = .cancelled := by
  let claimed : Finalizer := { s with
    job := { s.job with status := .running, attemptNo := s.job.attemptNo + 1 }
    attempts := s.attempts ++ [.claimed] }
  have claims : s.step .claim = some claimed := by
    rw [Finalizer.step, Jobs.Held.claim, if_pos ⟨ready.waits, ready.left⟩]
    rfl
  have atEnd : claimed.attempts[s.attempts.length]? = some .claimed := List.getElem?_concat_length ..
  have opened : openFinalizer claimed = (finishFinalizerJob (cancelScenarioRun claimed), none) := by
    rw [openFinalizer, if_neg ready.isOpen, if_pos cancelled]
  refine ⟨(finishFinalizerJob (cancelScenarioRun claimed)).setAttempt s.attempts.length .over,
    (Run.single answers_claim claims).tail (answers_begin s.attempts.length) ?_, rfl⟩
  rw [Finalizer.step, atEnd]
  dsimp only
  rw [opened]

/-- **The single pass agrees with the finaliser** on a run that has ended iff it was not cancelled: the
finaliser completes, and wherever it does it has the status and the counts of the single pass. -/
theorem inline_agrees (judge : Judge) (timeline : Timeline) (timeOrigin now : Int)
    (runtimeRun : RuntimeRun) (maxAttempts : Nat) (finished : runtimeRun.status.finished)
    (distinct : (timeline.expectationEvents.map eventId).Nodup) (positive : 0 < maxAttempts) :
    ∃ inline,
      evaluateRunInline judge (.started timeline timeOrigin now runtimeRun maxAttempts) = some inline ∧
      (∃ s, Run Finalizer.step judge.answers
        (.started timeline timeOrigin now runtimeRun maxAttempts) s ∧ s.status.terminal) ∧
      ((∀ s, Run Finalizer.step judge.answers
          (.started timeline timeOrigin now runtimeRun maxAttempts) s → s.status.terminal →
          s.status = inline.status ∧ s.summary.counts = inline.summary.counts) ↔
        runtimeRun.status ≠ .cancelled) := by
  have ready : Ready (.started timeline timeOrigin now runtimeRun maxAttempts) :=
    ⟨nofun, finished, rfl, positive⟩
  obtain ⟨status, single⟩ := @evaluate_inline_spec judge
    (.started timeline timeOrigin now runtimeRun maxAttempts) finished distinct
  refine ⟨_, single, completes judge ready, fun agree cancelled => ?_, fun notCancelled s run closed => ?_⟩
  · obtain ⟨s, run, isCancelled⟩ := cancelled_completes judge ready cancelled
    have same := (agree s run (by rw [isCancelled]; rfl)).1
    rw [isCancelled] at same
    exact absurd (same.trans (inline_status_cancelled cancelled status)) nofun
  · have atStart : JudgedThroughout judge (.started timeline timeOrigin now runtimeRun maxAttempts)
        (.started timeline timeOrigin now runtimeRun maxAttempts) :=
      ⟨⟨List.nodup_nil, nofun, nofun, rfl, (recorded_started ..).judged.adds⟩, ⟨rfl, rfl, rfl⟩, nofun⟩
    have agrees := run.invariant (fun s event t held answers stepped =>
      agrees_step finished notCancelled distinct held answers stepped) atStart
    obtain ⟨other, isStatus, isCounts⟩ := agrees.closed closed
    exact ⟨isStatus.trans (inline_status_eq finished other status), isCounts⟩

/-- A judge that reads an expectation off the outputs, and raises where there are none. -/
def literalJudge : Judge := fun request =>
  if request.scopedOutputs.isEmpty then none
  else if request.scopedOutputs.any fun output =>
      output.payload.toStr == (request.expectation.field "expectation").toStr then some .passed
  else some .failed

/-- The finaliser of a brewing run that has ended. -/
def endedFinalizer (status : RunStatus) (timeline : Timeline) : Finalizer :=
  .started timeline 0 2000000 { brewedRun with status := status } 3

theorem water_and_beans_inline : ∃ timeline inline,
    twoExpectations "water" "beans" = some timeline ∧
    evaluateRunInline literalJudge (endedFinalizer .succeeded timeline) = some inline ∧
    inline.status = .passed ∧
    ∀ s, Run Finalizer.step literalJudge.answers (endedFinalizer .succeeded timeline) s →
      s.status.terminal → s.status = inline.status ∧ s.summary.counts = inline.summary.counts := by
  have ids : (twoExpectations "water" "beans").any (fun timeline =>
      decide (timeline.expectationEvents.map eventId).Nodup) = true := by
    decide +kernel
  obtain ⟨timeline, inline, isTimeline, isInline, passed⟩ := checked_run (show
    ((twoExpectations "water" "beans").bind fun timeline =>
      evaluateRunInline literalJudge (endedFinalizer .succeeded timeline)).any
      (fun inline => decide (inline.status = .passed)) = true by
    decide +kernel)
  rw [isTimeline] at ids
  obtain ⟨other, isOther, -, agree⟩ := inline_agrees literalJudge timeline 0 2000000
    { brewedRun with status := .succeeded } 3 rfl (of_decide_eq_true ids) (by decide)
  obtain rfl := Option.some.inj (isOther.symm.trans isInline)
  exact ⟨timeline, other, isTimeline, isInline, of_decide_eq_true passed, agree.mpr nofun⟩

/-- The runtime run was cancelled: the finaliser cancels the scenario run, the single pass fails it. -/
theorem cancelled_run_disagrees : ∃ timeline inline s,
    twoExpectations "water" "beans" = some timeline ∧
    (timeline.expectationEvents.map eventId).Nodup ∧
    evaluateRunInline literalJudge (endedFinalizer .cancelled timeline) = some inline ∧
    Run Finalizer.step literalJudge.answers (endedFinalizer .cancelled timeline) s ∧
    s.status = .cancelled ∧ inline.status = .failed := by
  have ids : (twoExpectations "water" "beans").any (fun timeline =>
      decide (timeline.expectationEvents.map eventId).Nodup) = true := by
    decide +kernel
  obtain ⟨timeline, inline, isTimeline, isInline, failed⟩ := checked_run (show
    ((twoExpectations "water" "beans").bind fun timeline =>
      evaluateRunInline literalJudge (endedFinalizer .cancelled timeline)).any
      (fun inline => decide (inline.status = .failed)) = true by
    decide +kernel)
  rw [isTimeline] at ids
  have ready : Ready (endedFinalizer .cancelled timeline) := ⟨nofun, rfl, rfl, Nat.succ_pos _⟩
  obtain ⟨s, run, isCancelled⟩ := cancelled_completes literalJudge ready rfl
  exact ⟨timeline, inline, s, isTimeline, of_decide_eq_true ids, isInline, run, isCancelled,
    of_decide_eq_true failed⟩

end Psop.SkillTests
