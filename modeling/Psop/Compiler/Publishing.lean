import Psop.Compiler.Pipeline
import Psop.Jobs.Exhaustion

/-!
The compile jobs of a skill, commit by commit.

`Skill` has one step for every outcome of a compile job; `Compile` has one for every commit. What a
skill shows of a job is a view of the rows of its request (`Shows`), and every commit is a step of the
skill or none at all: `compile_refines`. So what holds of every run of a skill holds of the attempts of
its jobs.
-/
namespace Psop.Compiler

open Psop.Jobs (Held)
open Psop.Skills

variable {host : Host} {s t : Skill} {jobId : String} {job : CompileJob} {request : CompileRequest}
  {record : Option PublishRecord} {identity : CompileIdentity} {c d : Compile} {message : String}

/-- The steps of a skill that a job takes. -/
def OfJob (jobId : String) (e : PublishEvent) : Prop :=
  e = .claim jobId ∨ (∃ status, e = .compile jobId status) ∨ e = .finalize jobId ∨ e = .drop jobId

theorem key_of_find {α : Type} {key : α → String} {xs : List α} {x : α} {id : String}
    (found : xs.find? (fun y => key y == id) = some x) : key x = id := by
  have holds := List.find?_some found
  exact beq_iff_eq.mp holds

/-- The rows a compile job is about. -/
structure JobRows (s : Skill) (jobId : String) (job : CompileJob) (request : CompileRequest)
    (record : Option PublishRecord) : Prop where
  isJob : s.job? jobId = some job
  isRequest : s.request? job.requestId = some request
  isRecord : s.record? job.recordId = record

namespace JobRows

theorem job_id (rows : JobRows s jobId job request record) : job.id = jobId :=
  @key_of_find _ CompileJob.id _ _ _ rows.isJob

theorem request_id (rows : JobRows s jobId job request record) : request.id = job.requestId :=
  @key_of_find _ CompileRequest.id _ _ _ rows.isRequest

theorem updateJob (rows : JobRows s jobId job request record) {change : CompileJob → CompileJob}
    (keepsId : ∀ j, (change j).id = j.id) (sameRequest : (change job).requestId = job.requestId)
    (sameRecord : (change job).recordId = job.recordId) :
    JobRows (s.updateJob jobId change) jobId (change job) request record where
  isJob := by
    rw [Skill.job?_updateJob keepsId, rows.isJob, Option.map_some, if_pos rows.job_id]
  isRequest := by
    rw [sameRequest]
    exact rows.isRequest
  isRecord := by
    rw [sameRecord]
    exact rows.isRecord

theorem updateRequest (rows : JobRows s jobId job request record)
    {change : CompileRequest → CompileRequest} (keepsId : ∀ r, (change r).id = r.id) :
    JobRows (s.updateRequest request.id change) jobId job (change request) record where
  isJob := rows.isJob
  isRequest := by
    rw [Skill.request?_updateRequest keepsId, rows.isRequest, Option.map_some, if_pos rfl]
  isRecord := rows.isRecord

theorem updateRecord (rows : JobRows s jobId job request record)
    {change : PublishRecord → PublishRecord} (keepsId : ∀ r, (change r).id = r.id) :
    JobRows (s.updateRecord job.recordId change) jobId job request (record.map change) where
  isJob := rows.isJob
  isRequest := rows.isRequest
  isRecord := by
    rw [Skill.record?_updateRecord keepsId, rows.isRecord]
    cases found : record with
    | none => rfl
    | some row =>
      have named : row.id = job.recordId := @key_of_find _ PublishRecord.id _ _ _ (rows.isRecord.trans found)
      rw [Option.map_some, Option.map_some, if_pos named]

theorem setLatest (rows : JobRows s jobId job request record) (versionId : String) :
    JobRows { s with definition := { s.definition with latestPublishedVersionId := some versionId } }
      jobId job request record := ⟨rows.isJob, rows.isRequest, rows.isRecord⟩

end JobRows

/-- What the skill shows of a compile job. -/
structure Shows (jobId : String) (s : Skill) (c : Compile) (job : CompileJob) (request : CompileRequest)
    (record : Option PublishRecord) : Prop where
  rows : JobRows s jobId job request record
  held : job.held = c.job
  status : request.status = c.status
  /-- A finished job keeps its mark. -/
  compiled : c.job.status = .running → (job.compiled = true ↔ c.session = some .compiled)
  recorded : record.map PublishRecord.publishStatus = c.record
  latest : c.latest = true → s.definition.latestPublishedVersionId = some request.versionId

/-- The skill shows the rows of a request. -/
def View (jobId : String) (s : Skill) (c : Compile) : Prop :=
  ∃ job request record, Shows jobId s c job request record

/-- What a commit of an attempt is to the skill. -/
theorem compile_commit (shows : Shows jobId s c job request record) {p : Point}
    (session : c.session = some p) (other : p ≠ .compiled) (running : c.job.status = .running)
    {status : RequestStatus} (isOutcome : status ≠ .pending ∧ status ≠ .cancelled)
    (next : d.session = some .compiled ↔ status ≠ .running ∨ c.status = .succeeded)
    (outcome : d.status = if c.status = .succeeded then .succeeded else status)
    (same : d.job = c.job ∧ d.record = c.record ∧ d.latest = c.latest) :
    ∃ t, Skill.step host s (.compile jobId status) = some t ∧ View jobId t d := by
  have ahead : job.compiled = false := by
    cases compiled : job.compiled with
    | false => rfl
    | true => exact absurd (Option.some.inj (session.symm.trans ((shows.compiled running).mp compiled))) other
  have held : job.held.status = .running := by rw [shows.held, running]
  simp only [Skill.step, Skills.compile, shows.rows.isJob, shows.rows.isRequest, Option.bind_eq_bind,
    Option.bind_some, held, ahead, isOutcome, ne_eq, not_true, or_self, Bool.false_eq_true,
    if_false, shows.status]
  by_cases done : c.status = .succeeded
  · rw [if_pos done]
    refine ⟨_, rfl, _, _, _, shows.rows.updateJob (fun _ => rfl) rfl rfl, ?_, ?_, ?_, ?_, ?_⟩
    · rw [same.1]; exact shows.held
    · rw [outcome, if_pos done, shows.status, done]
    · exact fun _ => ⟨fun _ => next.mpr (.inr done), fun _ => rfl⟩
    · rw [same.2.1]; exact shows.recorded
    · rw [same.2.2]; exact shows.latest
  · rw [if_neg done]
    refine ⟨_, rfl, _, _, _, .updateJob (.updateRequest shows.rows ?_) ?_ rfl rfl, ?_, ?_, ?_, ?_, ?_⟩
    · exact fun _ => rfl
    · exact fun _ => rfl
    · rw [same.1]; exact shows.held
    · rw [outcome, if_neg done]
    · intro _
      rw [next]
      simp [done]
    · rw [same.2.1]; exact shows.recorded
    · rw [same.2.2]; exact shows.latest

theorem claim_commit (shows : Shows jobId s c job request record) {held : Held}
    (claimed : c.job.claim = some held) :
    ∃ t, Skill.step host s (.claim jobId) = some t ∧
      View jobId t { c with job := held, session := some .begin } := by
  simp only [Skill.step, claimJob, shows.rows.isJob, Option.bind_some, shows.held, claimed,
    Option.map_some]
  exact ⟨_, rfl, _, _, _, shows.rows.updateJob (fun _ => rfl) rfl rfl, rfl, shows.status, by simp,
    shows.recorded, shows.latest⟩

theorem finalize_commit (shows : Shows jobId s c job request record)
    (session : c.session = some .compiled) (running : c.job.status = .running) :
    ∃ t, Skill.step host s (.finalize jobId) = some t ∧ View jobId t c.finalizePublishJob := by
  have held : job.held.status = .running := by rw [shows.held, running]
  have compiled : job.compiled = true := (shows.compiled running).mpr session
  simp only [Skill.step, finalizePublish, shows.rows.isJob, shows.rows.isRequest, Option.bind_eq_bind,
    Option.bind_some, held, compiled, ne_eq, not_true, Bool.not_true, Bool.false_eq_true, or_self,
    if_false, shows.status, Compile.finalizePublishJob]
  by_cases done : c.status = .succeeded
  · rw [if_pos done, if_pos done]
    rw [shows.rows.isRecord]
    cases isRecord : record with
    | none =>
      have none : c.record = none := by rw [← shows.recorded, isRecord]; rfl
      refine ⟨_, rfl, _, _, _, .updateJob shows.rows ?_ rfl rfl, ?_, shows.status, by rintro ⟨⟩, ?_, ?_⟩
      · exact fun _ => rfl
      · show job.held.settle .succeeded = c.job.settle .succeeded
        rw [shows.held]
      · rw [isRecord, none]
        rfl
      · intro isLatest
        rw [none] at isLatest
        exact shows.latest (by simpa using isLatest)
    | some row =>
      refine ⟨_, rfl, _, _, _, .updateJob (.updateRecord (.setLatest shows.rows _) ?_) ?_ rfl rfl, ?_,
        shows.status, by rintro ⟨⟩, ?_, fun _ => rfl⟩
      · exact fun _ => rfl
      · exact fun _ => rfl
      · show job.held.settle .succeeded = c.job.settle .succeeded
        rw [shows.held]
      · rw [← shows.recorded, isRecord]
        rfl
  · rw [if_neg done, if_neg done]
    refine ⟨_, rfl, _, _, _, .updateJob (.updateRecord shows.rows ?_) ?_ rfl rfl, ?_, shows.status,
      by rintro ⟨⟩, ?_, shows.latest⟩
    · exact fun _ => rfl
    · exact fun _ => rfl
    · show job.held.settle .failed = c.job.settle .failed
      rw [shows.held]
    · rw [← shows.recorded, Option.map_map, Option.map_map]
      rfl

theorem exhausted_rows (shows : Shows jobId s c job request record) (message : String) :
    ∃ request' record', JobRows (finalizeExhausted job s) jobId job request' record' ∧
      request'.status = (c.finalizeExhausted message).status ∧
      record'.map PublishRecord.publishStatus = (c.finalizeExhausted message).record ∧
      request'.versionId = request.versionId ∧
      (finalizeExhausted job s).definition = s.definition ∧
      (c.finalizeExhausted message).latest = c.latest := by
  unfold finalizeExhausted Compile.finalizeExhausted
  simp only [shows.rows.isRequest, shows.status]
  split
  · exact ⟨request, record, shows.rows, shows.status, shows.recorded, rfl, rfl, rfl⟩
  · refine ⟨_, _, .updateRecord (.updateRequest shows.rows ?_) ?_, rfl, ?_, rfl, rfl, rfl⟩
    · exact fun _ => rfl
    · intro r
      split <;> rfl
    · rw [← shows.recorded, Option.map_map, Option.map_map]
      congr 1
      funext row
      simp only [Function.comp_apply]
      split <;> rfl

theorem drop_commit (shows : Shows jobId s c job request record) (running : c.job.status = .running)
    (stepped : c.drop message = some d) :
    ∃ t, Skill.step host s (.drop jobId) = some t ∧ View jobId t d := by
  have held : job.held.status = .running := by rw [shows.held, running]
  have still : c.job.drop.status ≠ .running := by
    have dropped := Held.drop_running running
    split at dropped
    · rw [dropped]; simp
    · rw [dropped]; simp
  unfold Compile.drop at stepped
  rw [if_neg (not_not.mpr running)] at stepped
  simp only [Skill.step, dropJob, shows.rows.isJob, Option.bind_some, shows.held, running, ne_eq,
    not_true, if_false]
  split at stepped
  · rename_i last
    obtain rfl := Option.some.inj stepped
    rw [if_pos last]
    obtain ⟨request', record', rows, status, recorded, version, definition, latest⟩ :=
      exhausted_rows shows message
    refine ⟨_, rfl, _, _, _, .updateJob rows ?_ rfl rfl, ?_, status, fun same => absurd same still,
      recorded, ?_⟩
    · exact fun _ => rfl
    · show job.held.drop = c.job.drop
      rw [shows.held]
    · intro isLatest
      show (finalizeExhausted job s).definition.latestPublishedVersionId = _
      rw [definition, version]
      exact shows.latest (latest ▸ isLatest)
  · rename_i more
    obtain rfl := Option.some.inj stepped
    rw [if_neg more]
    refine ⟨_, rfl, _, _, _, .updateJob shows.rows ?_ rfl rfl, ?_, shows.status,
      fun same => absurd same still, shows.recorded, shows.latest⟩
    · exact fun _ => rfl
    · show job.held.drop = c.job.drop
      rw [shows.held]

/-- **Every commit of an attempt is a step of the skill, or none.** -/
theorem step_refines (kept : CommitInvariant identity c) (view : View jobId s c) {e : CompileEvent}
    (stepped : c.step identity e = some d) :
    ∃ t, Run (Skill.step host) (fun _ => OfJob jobId) s t ∧ View jobId t d := by
  obtain ⟨job, request, record, shows⟩ := view
  have compiles : ∀ status, (∃ t, Skill.step host s (.compile jobId status) = some t ∧ View jobId t d) →
      ∃ t, Run (Skill.step host) (fun _ => OfJob jobId) s t ∧ View jobId t d := by
    rintro status ⟨t, took, after⟩
    exact ⟨t, .single (.inr (.inl ⟨status, rfl⟩)) took, after⟩
  have ahead : ∀ p, c.session = some p → (p.mark = none → c.status ≠ .succeeded) →
      c.status ≠ .succeeded := by
    intro p session unfinished
    cases mark : p.mark with
    | none => exact unfinished mark
    | some m =>
      rw [kept.inside p session (by rw [mark]; rfl)]
      simp
  have dropped : ∀ message, c.job.status = .running → c.drop message = some d →
      ∃ t, Run (Skill.step host) (fun _ => OfJob jobId) s t ∧ View jobId t d := by
    intro message running took
    obtain ⟨t, took, after⟩ := drop_commit shows running took
    exact ⟨t, .single (.inr (.inr (.inr rfl))) took, after⟩
  cases commit_of_step stepped with
  | claim claimed =>
    obtain ⟨t, took, after⟩ := claim_commit shows claimed
    exact ⟨t, .single (.inl rfl) took, after⟩
  | @enter p q base key status message errorMessage session mark follows early writes =>
    have based := writes.based kept session
    have unfinished : c.status ≠ .succeeded := by
      cases writes with
      | first unfinished => exact unfinished
      | nothing inside =>
        rw [kept.inside p session inside]
        simp
      | stored =>
        rw [kept.inside _ session rfl]
        simp
    simp only [Compile.enter, mark] at compiles ⊢
    refine compiles .running (compile_commit shows session writes.inside
      (kept.running p session) (by simp) ?_ ?_ ⟨based.job, based.record, based.latest⟩)
    · simp only [Option.some.injEq, ne_eq, not_true, false_or]
      refine ⟨?_, fun done => absurd done unfinished⟩
      rintro rfl
      cases mark
    · rw [if_neg unfinished]
      exact based.status
  | skip session done =>
    exact compiles .running (compile_commit shows session (by simp) (kept.running _ session) (by simp)
      (by simp [done]) (by simp [done]) ⟨rfl, rfl, rfl⟩)
  | succeed session =>
    exact compiles .succeeded (compile_commit shows session (by simp) (kept.running _ session) (by simp)
      (by simp [Compile.settleRequest]) (by simp [Compile.settleRequest]) ⟨rfl, rfl, rfl⟩)
  | @refuse p progress message session inside unfinished fails =>
    exact compiles .failed (compile_commit shows session inside (kept.running p session) (by simp)
      (by simp [Compile.settleRequest]) (by
        rw [if_neg (ahead p session unfinished)]
        rfl) ⟨rfl, rfl, rfl⟩)
  | finalize session =>
    obtain ⟨t, took, after⟩ := finalize_commit shows session (kept.running _ session)
    exact ⟨t, .single (.inr (.inr (.inl rfl))) took, after⟩
  | exhaust message last =>
    have running : c.job.status = .running := by
      simp only [Held.exhausted, Bool.and_eq_true, beq_iff_eq] at last
      exact last.1
    refine dropped message running ?_
    rw [Compile.drop, if_neg (not_not.mpr running), if_pos last]
  | drop message running more =>
    refine dropped message running ?_
    rw [Compile.drop, if_neg (not_not.mpr running), if_neg (by rw [more]; simp)]
  | edit isStored sound stamped =>
    exact ⟨s, .refl s, job, request, record, shows.rows, shows.held, shows.status, shows.compiled,
      shows.recorded, shows.latest⟩

/-- A publish that was committed has queued its compile. -/
theorem queued_view {recordId versionId requestId : String}
    (committed : Skill.step host s (.commit recordId versionId requestId jobId) = some t) :
    View jobId t (.queued identity host.runtimeJobMaxAttempts
      ((s.record? recordId).map PublishRecord.publishStatus)) := by
  obtain ⟨p, bundle, document, versionNo, -, -, -, newRequest, newJob, rfl⟩ := commit_spec committed
  refine ⟨{ id := jobId, requestId := requestId, recordId := recordId
            held := { maxAttempts := host.runtimeJobMaxAttempts } },
    { id := requestId, versionId := versionId, sourceCommitSha := bundle.headCommitSha }, _,
    ⟨?_, ?_, rfl⟩, rfl, rfl, by rintro ⟨⟩, ?_, by rintro ⟨⟩⟩
  · exact find?_append_new (fun j isJob => beq_false_of_ne (newJob j isJob)) (beq_self_eq_true _)
  · exact find?_append_new (fun r isRequest => beq_false_of_ne (newRequest r isRequest))
      (beq_self_eq_true _)
  · show Option.map _ (Skill.record? recordId (Skill.updateRecord recordId _ _)) = _
    rw [Skill.record?_updateRecord, Option.map_map]
    · show Option.map _ (s.record? recordId) = _
      congr 1
      funext record
      simp only [Function.comp_apply]
      split <;> rfl
    · exact fun _ => rfl

/-- **The attempts of a compile job refine the compile jobs of a skill**: once a publish is committed,
whatever the commits of its compile do to the rows of the request, steps of that job do to the skill,
and the skill shows those rows. -/
theorem compile_refines {recordId versionId requestId : String}
    (committed : Skill.step host s (.commit recordId versionId requestId jobId) = some t)
    (run : Run (Compile.step identity) anyStep (.queued identity host.runtimeJobMaxAttempts
      ((s.record? recordId).map PublishRecord.publishStatus)) d) :
    ∃ u, Run (Skill.step host) (fun _ => OfJob jobId) t u ∧ View jobId u d := by
  induction run with
  | refl => exact ⟨t, .refl t, queued_view committed⟩
  | tail run _ stepped ih =>
    obtain ⟨u, first, view⟩ := ih
    obtain ⟨v, second, view⟩ := step_refines (kept_run run) view stepped
    exact ⟨v, first.trans second, view⟩

/-- The first publish of a skill, and a compile that goes through. -/
theorem compile_refines_brewing : ∃ s t d u,
    Skill.step plainHost s (.commit "record-1" "version-1" "request-1" "job-1") = some t ∧
      Run (Compile.step brewIdentity) anyStep (.queued brewIdentity plainHost.runtimeJobMaxAttempts
        ((s.record? "record-1").map PublishRecord.publishStatus)) d ∧ d.job.status = .succeeded ∧
      Run (Skill.step plainHost) (fun _ => OfJob "job-1") t u ∧ View "job-1" u d := by
  obtain ⟨s, ends, -, ran, compiling⟩ := checked_run (show
    ((follow (Skill.step plainHost) anyStep newSkill firstPublish.dropLast).bind fun s =>
      (Skill.step plainHost s (.commit "record-1" "version-1" "request-1" "job-1")).map fun t =>
        (s, t)).any (fun ends => (ends.1.record? "record-1").map PublishRecord.publishStatus ==
          some .compiling) = true by decide +kernel)
  obtain ⟨t, committed, rfl⟩ := Option.map_eq_some_iff.mp ran
  obtain ⟨c, d, -, first, second, succeeded, -⟩ := brew_compiled
  have run := first.trans second
  rw [← beq_iff_eq.mp compiling] at run
  obtain ⟨u, steps, view⟩ := compile_refines committed run
  exact ⟨s, t, d, u, committed, run, succeeded, steps, view⟩

end Psop.Compiler
