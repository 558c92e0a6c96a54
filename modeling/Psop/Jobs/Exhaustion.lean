import Psop.Runtime.Events
import Psop.Skills.Generation
import Psop.Skills.Latest
import Psop.Skills.Lifecycle
import Psop.SkillTests.Scenario

/-!
What an exhausted job leaves open.

An `Owner` is the jobs of one type with the records they own. When the last attempt of a job ends
without a result, the finaliser of its type runs in the transaction that makes the job failed, on
whatever the attempts have committed. `exhausted_closed` says when every record of the job is in a
terminal status then: always for a runtime run, an analysis, a generation and the job that closes a
scenario run; for a compile job unless its request has an outcome that its publish record was not
given; for a timeline driver unless the driver's status is final beside an open scenario run.
-/
namespace Psop.Jobs

open Psop.Runtime (Platform System)
open Psop.Skills
open Psop.SkillTests (Scenario ScenarioEvent)

structure Owner where
  State : Type
  Event : Type
  /-- How a state names a job. -/
  Name : Type
  step : State → Event → Option State
  created : State → Prop
  held : State → Name → Option Held
  /-- The event ends an attempt of the job without a result. -/
  ends : Event → Name → Prop
  /-- Every record of the job is in a terminal status. -/
  closed : State → Name → Prop
  /-- What the finaliser relies on. -/
  sound : State → Name → Prop

/-- The last attempt of the job ends without a result. -/
structure Owner.Exhausts (o : Owner) (s : o.State) (e : o.Event) (job : o.Name) (t : o.State) :
    Prop where
  ends : o.ends e job
  last : ∃ held, o.held s job = some held ∧ held.exhausted = true
  stepped : o.step s e = some t

theorem exhausted_spec {held : Held} (last : held.exhausted = true) :
    held.status = .running ∧ ¬ held.attemptNo < held.maxAttempts := by
  obtain ⟨running, none_⟩ := Bool.and_eq_true_iff.mp last
  exact ⟨beq_iff_eq.mp running, Nat.not_lt.mpr (of_decide_eq_true none_)⟩

/-! ### Runtime runs -/

def runtimeOwner (platform : Platform) : Owner where
  State := System
  Event := Runtime.Event
  Name := Unit
  step := System.step platform
  created s := ∃ artifact runId maxAttempts now, s = System.created artifact runId maxAttempts now
  held s _ := s.rows.job.map Held.ofRow
  ends e _ := match e with
    | .recordFailure .. | .recover .. => True
    | _ => False
  closed s _ := s.rows.finished = true
  sound _ _ := True

theorem runtime_closed {platform : Platform} {s t : System} {e : Runtime.Event} {job : Unit}
    (exhausts : (runtimeOwner platform).Exhausts s e job t) : t.rows.finished = true := by
  obtain ⟨ends, ⟨held, isHeld, last⟩, stepped⟩ := exhausts
  obtain ⟨row, has, rfl⟩ := Option.map_eq_some_iff.mp isHeld
  obtain ⟨running, none_⟩ := exhausted_spec last
  have left : ¬ row.attemptNo < row.maxAttempts := none_
  cases e with
  | recordFailure owner message supply =>
    simp only [runtimeOwner, System.step, System.recordFailure, has, left, if_false] at stepped
    split at stepped
    · cases stepped
    · obtain ⟨rows, finalized, rfl⟩ := Option.map_eq_some_iff.mp stepped
      exact Runtime.finalize_finished rfl finalized
  | recover retryDelay supply =>
    simp only [runtimeOwner, System.step, System.recover, has, left, if_false] at stepped
    split at stepped
    · cases stepped
    · split at stepped
      · cases stepped
      · obtain ⟨rows, finalized, rfl⟩ := Option.map_eq_some_iff.mp stepped
        exact Runtime.finalize_finished rfl finalized
  | _ => cases ends

/-! ### Analyses and generations -/

def analysisOwner : Owner where
  State := Material
  Event := MaterialEvent
  Name := Nat
  step := Material.step
  created s := s = .uploaded
  held s a := s.analyses[a]?.map Analysis.held
  ends e a := e = .drop a
  closed s a := (∀ analysis ∈ s.analyses[a]?, analysis.status.active = false) ∧
    s.status ≠ .processing
  sound _ _ := True

theorem analysis_closed {first s t : Material} {e : MaterialEvent} {a : Nat}
    (created : first = .uploaded) (run : Run Material.step anyStep first s)
    (exhausts : analysisOwner.Exhausts s e a t) : analysisOwner.closed t a := by
  obtain ⟨rfl, ⟨held, isHeld, last⟩, stepped⟩ := exhausts
  obtain ⟨analysis, found, rfl⟩ := Option.map_eq_some_iff.mp isHeld
  have paired : ∀ analysis ∈ s.analyses, analysis.Paired :=
    run.invariant (fun s e t paired _ stepped => paired_step paired stepped)
      (created ▸ fun _ mem => absurd mem List.not_mem_nil)
  have running := (exhausted_spec last).1
  have active := (paired analysis (List.mem_of_getElem? found)).active running
  simp only [analysisOwner, Material.step, dropAnalysis, found, Option.bind_some, running, last,
    ne_eq, not_true, if_false, if_true, finalizeExhaustedAnalysis, active] at stepped
  obtain rfl := Option.some.inj stepped
  have inside := (List.getElem?_eq_some_iff.mp found).1
  refine ⟨fun other isOther => ?_, ?_⟩
  · rw [show Material.analyses _ = s.analyses.set a _ from rfl, List.getElem?_set_self inside]
      at isOther
    obtain rfl := Option.some.inj isOther
    rfl
  · show (if s.status = .archived then MaterialStatus.archived else .failed) ≠ .processing
    split <;> decide

def generationOwner : Owner where
  State := Generation
  Event := GenerationEvent
  Name := Unit
  step := Generation.step
  created s := ∃ branch id baseCommitSha maxAttempts,
    s = Generation.created branch id baseCommitSha maxAttempts
  held s _ := some s.held
  ends e _ := e = .drop
  closed s _ := s.row.status = .succeeded ∨ s.row.status = .failed ∨ s.row.status = .cancelled
  sound _ _ := True

theorem generation_closed {s t : Generation} {e : GenerationEvent} {job : Unit}
    (exhausts : generationOwner.Exhausts s e job t) : generationOwner.closed t job := by
  obtain ⟨rfl, ⟨held, isHeld, last⟩, stepped⟩ := exhausts
  obtain rfl : s.held = held := Option.some.inj isHeld
  simp only [generationOwner, Generation.step, dropGeneration, (exhausted_spec last).1, last, ne_eq,
    not_true, if_false, if_true] at stepped
  obtain rfl := Option.some.inj stepped
  show (exhaustedRow s.row).status = _ ∨ (exhaustedRow s.row).status = _ ∨ _
  unfold exhaustedRow
  split
  · assumption
  · exact .inr (.inl rfl)

/-! ### Compile requests and publish records -/

def RequestClosed (s : Skill) (job : CompileJob) : Prop :=
  ∀ request ∈ s.request? job.requestId, request.status = .succeeded ∨ request.status = .failed ∨
    request.status = .cancelled

def RecordClosed (s : Skill) (job : CompileJob) : Prop :=
  ∀ record ∈ s.record? job.recordId, record.publishStatus ≠ .compiling

def compileOwner (host : Host) : Owner where
  State := Skill
  Event := PublishEvent
  Name := String
  step := Skill.step host
  created s := ∃ branch definition document, s = Skill.created branch definition document
  held s jobId := (s.job? jobId).map CompileJob.held
  ends e jobId := e = .drop jobId
  closed s jobId := ∀ job ∈ s.job? jobId, RequestClosed s job ∧ RecordClosed s job
  sound s jobId := ∀ job ∈ s.job? jobId, RequestClosed s job → RecordClosed s job

/-- The finaliser closes both records where the request is open, and neither otherwise. -/
theorem finalize_exhausted_closed (s : Skill) (job : CompileJob) :
    RequestClosed (finalizeExhausted job s) job ∧ RecordClosed (finalizeExhausted job s) job ↔
      (RequestClosed s job → RecordClosed s job) := by
  unfold finalizeExhausted
  split
  · rename_i absent
    have closed : RequestClosed s job := fun request found => by
      rw [absent] at found
      cases found
    exact ⟨fun ⟨_, record⟩ _ => record, fun sound => ⟨closed, sound closed⟩⟩
  · rename_i request found
    split
    · rename_i terminal
      have closed : RequestClosed s job := fun other found' => by
        obtain rfl := Option.some.inj (found.symm.trans found')
        exact terminal
      exact ⟨fun ⟨_, record⟩ _ => record, fun sound => ⟨closed, sound closed⟩⟩
    · rename_i unfinished
      refine ⟨fun _ closed => absurd (closed request found) unfinished, fun _ => ⟨?_, ?_⟩⟩
      · intro other isOther
        change (s.updateRequest request.id _).request? job.requestId = some other at isOther
        rw [Skill.request?_updateRequest] at isOther
        · obtain ⟨old, isOld, rfl⟩ := Option.map_eq_some_iff.mp isOther
          obtain rfl : request = old := Option.some.inj (found.symm.trans isOld)
          rw [if_pos rfl]
          exact .inr (.inl rfl)
        · exact fun _ => rfl
      · intro record isRecord
        change (Skill.updateRecord job.recordId _ _).record? job.recordId = some record at isRecord
        rw [Skill.record?_updateRecord] at isRecord
        · obtain ⟨old, isOld, rfl⟩ := Option.map_eq_some_iff.mp isRecord
          have named := List.find?_some (show s.records.find? (fun r => r.id == job.recordId) = _
            from isOld)
          rw [if_pos (beq_iff_eq.mp named)]
          split
          · rename_i published
            rw [published]
            exact fun same => nomatch same
          · exact fun same => nomatch same
        · intro r
          split <;> rfl

theorem compile_closed {host : Host} {s t : Skill} {e : PublishEvent} {jobId : String}
    (exhausts : (compileOwner host).Exhausts s e jobId t) :
    (compileOwner host).closed t jobId ↔ (compileOwner host).sound s jobId := by
  obtain ⟨rfl, ⟨held, isHeld, last⟩, stepped⟩ := exhausts
  obtain ⟨job, found, rfl⟩ := Option.map_eq_some_iff.mp isHeld
  simp only [compileOwner, Skill.step, dropJob, found, Option.bind_some, (exhausted_spec last).1,
    last, ne_eq, not_true, if_false, if_true] at stepped
  obtain rfl := Option.some.inj stepped
  have same : (finalizeExhausted job s).job? jobId = some job := by
    rw [Skill.job?, (finalizeExhausted_rows job s).2.1]
    exact found
  -- the row of the job keeps what it is about
  obtain ⟨job', isJob', sameRequest, sameRecord⟩ : ∃ job',
      ((finalizeExhausted job s).updateJob jobId fun job =>
        { job with held := job.held.drop, compiled := false }).job? jobId = some job' ∧
      job'.requestId = job.requestId ∧ job'.recordId = job.recordId := by
    rw [Skill.job?_updateJob, same, Option.map_some]
    · refine ⟨_, rfl, ?_⟩
      split <;> exact ⟨rfl, rfl⟩
    · exact fun _ => rfl
  have sound : (compileOwner host).sound s jobId ↔ (RequestClosed s job → RecordClosed s job) := by
    refine ⟨fun sound => sound job found, fun sound job' isJob => ?_⟩
    obtain rfl : job = job' := Option.some.inj (found.symm.trans isJob)
    exact sound
  have closed : (compileOwner host).closed ((finalizeExhausted job s).updateJob jobId fun job =>
      { job with held := job.held.drop, compiled := false }) jobId ↔
      RequestClosed (finalizeExhausted job s) job ∧ RecordClosed (finalizeExhausted job s) job := by
    unfold RequestClosed RecordClosed
    rw [← sameRequest, ← sameRecord]
    refine ⟨fun closed => closed job' isJob', fun closed other isOther => ?_⟩
    obtain rfl : job' = other := Option.some.inj (isJob'.symm.trans isOther)
    exact closed
  rw [sound, closed, finalize_exhausted_closed]

/-! ### Scenario runs -/

def driverOwner : Owner where
  State := Scenario
  Event := ScenarioEvent
  Name := Unit
  step := Scenario.step
  created s := ∃ inputs maxAttempts, s = Scenario.started inputs maxAttempts
  held s _ := some s.driver.held
  ends e _ := e = .dropDriver
  closed s _ := s.run.status.terminal = true
  sound s _ := s.run.driverStatus.final = true → s.run.status.terminal = true

theorem driver_closed {s t : Scenario} {e : ScenarioEvent} {job : Unit}
    (exhausts : driverOwner.Exhausts s e job t) :
    driverOwner.closed t job ↔ driverOwner.sound s job := by
  obtain ⟨rfl, ⟨held, isHeld, last⟩, stepped⟩ := exhausts
  obtain rfl : s.driver.held = held := Option.some.inj isHeld
  simp only [driverOwner, Scenario.step, SkillTests.dropDriver, (exhausted_spec last).1, last,
    ne_eq, not_true, if_false, if_true] at stepped
  obtain rfl := Option.some.inj stepped
  show (SkillTests.finalizeExhaustedTimelineDriver s.run).status.terminal = true ↔
    (s.run.driverStatus.final = true → s.run.status.terminal = true)
  unfold SkillTests.finalizeExhaustedTimelineDriver
  split
  · rename_i final
    exact ⟨fun terminal _ => terminal, fun sound => sound final⟩
  · rename_i unfinished
    exact ⟨fun _ final => absurd final unfinished, fun _ => rfl⟩

def finalizerOwner : Owner where
  State := Scenario
  Event := ScenarioEvent
  Name := Unit
  step := Scenario.step
  created s := ∃ inputs maxAttempts, s = Scenario.started inputs maxAttempts
  held s _ := s.finalizer.map SkillTests.Leased.held
  ends e _ := e = .dropFinalizer
  closed s _ := s.run.status.terminal = true
  sound _ _ := True

theorem finalizer_closed {s t : Scenario} {e : ScenarioEvent} {job : Unit}
    (exhausts : finalizerOwner.Exhausts s e job t) : finalizerOwner.closed t job := by
  obtain ⟨rfl, ⟨held, isHeld, last⟩, stepped⟩ := exhausts
  obtain ⟨leased, isLeased, rfl⟩ := Option.map_eq_some_iff.mp isHeld
  simp only [finalizerOwner, Scenario.step, SkillTests.dropFinalizer, isLeased, Option.bind_some,
    (exhausted_spec last).1, last, ne_eq, not_true, if_false, if_true] at stepped
  obtain rfl := Option.some.inj stepped
  show (SkillTests.finalizeExhaustedScenarioFinalizer s.run).status.terminal = true
  unfold SkillTests.finalizeExhaustedScenarioFinalizer
  split
  · assumption
  · rfl

/-! ### Every type of job -/

def owner (host : Host) (platform : Platform) : JobType → Owner
  | .compile => compileOwner host
  | .runtime => runtimeOwner platform
  | .timelineDriver => driverOwner
  | .scenarioFinalizer => finalizerOwner
  | .rawMaterialAnalysis => analysisOwner
  | .skillRawMaterialGeneration => generationOwner

/-- **For every type of job, whenever the last attempt of a job ends without a result, its records
are all in a terminal status exactly where the finaliser of the type can rely on what it finds.** -/
theorem exhausted_closed (host : Host) (platform : Platform) (type : JobType)
    {first s t : (owner host platform type).State} {e : (owner host platform type).Event}
    {job : (owner host platform type).Name} (created : (owner host platform type).created first)
    (run : Run (owner host platform type).step anyStep first s)
    (exhausts : (owner host platform type).Exhausts s e job t) :
    (owner host platform type).closed t job ↔ (owner host platform type).sound s job := by
  cases type with
  | compile => exact compile_closed exhausts
  | runtime => exact ⟨fun _ => trivial, fun _ => runtime_closed exhausts⟩
  | timelineDriver => exact driver_closed exhausts
  | scenarioFinalizer => exact ⟨fun _ => trivial, fun _ => finalizer_closed exhausts⟩
  | rawMaterialAnalysis => exact ⟨fun _ => trivial, fun _ => analysis_closed created run exhausts⟩
  | skillRawMaterialGeneration => exact ⟨fun _ => trivial, fun _ => generation_closed exhausts⟩

/-! ### Attempts that stop between two transactions -/

/-- A publish whose compile job is in its last attempt. -/
def lastCompile : List PublishEvent :=
  firstPublish ++ [PublishEvent.claim "job-1", .drop "job-1", .claim "job-1", .drop "job-1", .claim "job-1"]

/-- The timeline of a scenario run without inputs is completed, its job still to be settled. -/
def completedTimeline : List ScenarioEvent :=
  [.claimDriver, .driver 0 .due, .driver 0 .due, .driver 0 .due]

/-- A compile job that stops after the commit of its request and before that of its publish record
leaves the record in compiling, and a driver that stops after it completed the timeline leaves the
scenario run open. -/
theorem exhausted_open :
    (¬ ∀ (host : Host) (platform : Platform) (type : JobType) first s e job t,
      (owner host platform type).created first →
      Run (owner host platform type).step anyStep first s →
      (owner host platform type).Exhausts s e job t → (owner host platform type).closed t job) ∧
    ¬ ∀ first s e job t, driverOwner.created first → Run driverOwner.step anyStep first s →
      driverOwner.Exhausts s e job t → driverOwner.closed t job := by
  constructor
  · intro always
    have checked : ((follow (Skill.step plainHost) anyStep newSkill
        (lastCompile ++ [PublishEvent.compile "job-1" .running, .compile "job-1" .succeeded])).bind fun s =>
          (Skill.step plainHost s (.drop "job-1")).map fun t => (s, t)).any (fun (s, t) =>
          (s.job? "job-1").any (fun job => job.held.exhausted) && (t.job? "job-1").any fun job =>
            (t.record? job.recordId).any fun record => record.publishStatus == .compiling) =
        true := by
      decide +kernel
    obtain ⟨s, ⟨s', t⟩, followed, dropped, torn⟩ := checked_run checked
    obtain ⟨u, stepped, same⟩ := Option.map_eq_some_iff.mp dropped
    obtain ⟨rfl, rfl⟩ := Prod.mk.inj same
    obtain ⟨last, torn⟩ := Bool.and_eq_true_iff.mp torn
    obtain ⟨job, isJob, exhausted⟩ := (Option.any_eq_true ..).mp last
    obtain ⟨job', isJob', torn⟩ := (Option.any_eq_true ..).mp torn
    obtain ⟨record, isRecord, compiling⟩ := (Option.any_eq_true ..).mp torn
    have closed := always plainHost Runtime.plainPlatform .compile newSkill s (.drop "job-1")
      "job-1" u ⟨_, _, _, rfl⟩ (run_of_follow followed)
      ⟨rfl, ⟨job.held, Option.map_eq_some_iff.mpr ⟨job, isJob, rfl⟩, exhausted⟩, stepped⟩
    exact (closed job' isJob').2 record isRecord (beq_iff_eq.mp compiling)
  · intro always
    have checked : ((follow Scenario.step anyStep (.started 0 1) completedTimeline).bind fun s =>
        (Scenario.step s .dropDriver).map fun t => (s, t)).any (fun (s, t) =>
          s.driver.held.exhausted && !t.run.status.terminal) = true := by
      decide +kernel
    obtain ⟨s, ⟨s', t⟩, followed, dropped, torn⟩ := checked_run checked
    obtain ⟨u, stepped, same⟩ := Option.map_eq_some_iff.mp dropped
    obtain ⟨rfl, rfl⟩ := Prod.mk.inj same
    obtain ⟨last, torn⟩ := Bool.and_eq_true_iff.mp torn
    have closed : u.run.status.terminal = true := always (.started 0 1) s .dropDriver () u
      ⟨_, _, rfl⟩ (run_of_follow followed) ⟨rfl, ⟨_, rfl, last⟩, stepped⟩
    rw [closed] at torn
    cases torn

/-- A last attempt that stops while it compiles. -/
theorem exhausted_closed_compiling : ∃ s t, Run (Skill.step plainHost) anyStep newSkill s ∧
    (compileOwner plainHost).Exhausts s (.drop "job-1") "job-1" t ∧
    (compileOwner plainHost).closed t "job-1" := by
  have checked : ((follow (Skill.step plainHost) anyStep newSkill
      (lastCompile ++ [PublishEvent.compile "job-1" .running])).bind fun s =>
        (Skill.step plainHost s (.drop "job-1")).map fun t => (s, t)).any (fun (s, t) =>
        (s.job? "job-1").any (fun job => job.held.exhausted && (s.request? job.requestId).any
          fun request => request.status == .running)) = true := by
    decide +kernel
  obtain ⟨s, ⟨s', t⟩, followed, dropped, last⟩ := checked_run checked
  obtain ⟨u, stepped, same⟩ := Option.map_eq_some_iff.mp dropped
  obtain ⟨rfl, rfl⟩ := Prod.mk.inj same
  obtain ⟨job, isJob, last⟩ := (Option.any_eq_true ..).mp last
  obtain ⟨exhausted, running⟩ := Bool.and_eq_true_iff.mp last
  obtain ⟨request, isRequest, running⟩ := (Option.any_eq_true ..).mp running
  have exhausts : (compileOwner plainHost).Exhausts s (.drop "job-1") "job-1" u :=
    ⟨rfl, ⟨job.held, Option.map_eq_some_iff.mpr ⟨job, isJob, rfl⟩, exhausted⟩, stepped⟩
  refine ⟨s, u, run_of_follow followed, exhausts, (exhausted_closed plainHost Runtime.plainPlatform
    .compile ⟨_, _, _, rfl⟩ (run_of_follow followed) exhausts).mpr fun other isOther closed => ?_⟩
  obtain rfl := Option.some.inj (isJob.symm.trans isOther)
  have ended := closed request isRequest
  rw [beq_iff_eq.mp running] at ended
  rcases ended with same | same | same <;> cases same

end Psop.Jobs
