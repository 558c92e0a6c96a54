import Mathlib.Data.List.Nodup
import Psop.Skills.Frozen

/-!
The numbers of published versions and the latest of them.

A publish reads the next number in one query and inserts its version in a later transaction, and the
compile job of a version makes it the latest one whenever it finishes. `published_ordered` says when
numbers are distinct and the latest version never goes back: each publish inserts under a number that is
still the next one, and no job finishes after the job of a later version has succeeded.
-/
namespace Psop.Skills

open Psop.Jobs (Held)

variable {host : Host} {s t : Skill}

/-- The latest published version. -/
def Skill.latest? (s : Skill) : Option Version := s.definition.latestPublishedVersionId.bind s.version?

/-- The version a compile job is about. -/
def Skill.jobVersion? (s : Skill) (job : CompileJob) : Option Version :=
  (s.request? job.requestId).bind fun request => s.version? request.versionId

/-- The number a publish has read. -/
def PublishStage.number? : PublishStage → Option Nat
  | .numbered _ _ versionNo => some versionNo
  | _ => none

/-- A compile job whose request has succeeded. -/
def Skill.succeeds (s : Skill) (job : CompileJob) : Bool :=
  (s.request? job.requestId).any fun request => request.status == .succeeded

/-- No version with a higher number has a job that succeeded. -/
def Foremost (s : Skill) (job : CompileJob) : Prop :=
  ∀ v ∈ s.jobVersion? job, ∀ other ∈ s.jobs, other.held.status = .succeeded →
    ∀ w ∈ s.jobVersion? other, w.versionNo ≤ v.versionNo

instance (s : Skill) (job : CompileJob) : Decidable (Foremost s job) :=
  inferInstanceAs (Decidable (∀ v ∈ s.jobVersion? job, ∀ other ∈ s.jobs,
    other.held.status = .succeeded → ∀ w ∈ s.jobVersion? other, w.versionNo ≤ v.versionNo))

def Ordered (s : Skill) : PublishEvent → Prop
  | .commit recordId _ _ _ => ∀ p ∈ s.publish? recordId, ∀ versionNo ∈ p.stage.number?,
      s.nextPublishedVersionNo = versionNo
  | .finalize jobId => ∀ job ∈ s.job? jobId, s.succeeds job = true → Foremost s job
  | _ => True

instance : ∀ s e, Decidable (Ordered s e)
  | s, .commit recordId _ _ _ => inferInstanceAs (Decidable (∀ p ∈ s.publish? recordId,
      ∀ versionNo ∈ p.stage.number?, s.nextPublishedVersionNo = versionNo))
  | s, .finalize jobId => inferInstanceAs (Decidable (∀ job ∈ s.job? jobId,
      s.succeeds job = true → Foremost s job))
  | _, .editSource .. | _, .editDraft .. | _, .accept .. | _, .read _ | _, .fail _ | _, .claim _
  | _, .compile .. | _, .drop _ => inferInstanceAs (Decidable True)

/-! ### What a step carries along -/

/-- Published versions and what requests are about. -/
structure Carried (s t : Skill) : Prop where
  versions : ∀ id v, s.version? id = some v → v.status = .published → t.version? id = some v
  requests : ∀ id r, s.request? id = some r → ∃ r', t.request? id = some r' ∧ r'.versionId = r.versionId

theorem Carried.of_same (versions : t.versions = s.versions) (requests : t.requests = s.requests) :
    Carried s t where
  versions id v found _ := by
    rw [Skill.version?, versions]
    exact found
  requests id r found := ⟨r, by rw [Skill.request?, requests]; exact found, rfl⟩

theorem Carried.jobVersion? (carried : Carried s t) {job job' : CompileJob} {v : Version}
    (same : job'.requestId = job.requestId) (found : s.jobVersion? job = some v)
    (published : v.status = .published) : t.jobVersion? job' = some v := by
  obtain ⟨r, isRequest, isVersion⟩ := Option.bind_eq_some_iff.mp found
  obtain ⟨r', isRequest', sameVersion⟩ := carried.requests _ r isRequest
  rw [Skill.jobVersion?, same, isRequest', Option.bind_some, sameVersion]
  exact carried.versions _ v isVersion published

/-- A draft is rewritten. -/
theorem updateVersion_version? {id : String} {change : Version → Version}
    (keeps : ∀ v, (change v).id = v.id ∧ (change v).status = v.status)
    (drafts : ∀ v ∈ s.versions, v.id = id → v.status = .draft) (other : String) (v : Version)
    (found : s.version? other = some v) (published : v.status = .published) :
    (s.updateVersion id change).version? other = some v := by
  have differ : v.id ≠ id := fun same => by
    have := drafts v (List.mem_of_find?_eq_some found) same
    rw [published] at this
    cases this
  rw [Skill.version?_updateVersion fun w => (keeps w).1, found, Option.map_some, if_neg differ]

theorem updateVersion_published {id : String} {change : Version → Version}
    (keeps : ∀ v, (change v).id = v.id ∧ (change v).status = v.status)
    (drafts : ∀ v ∈ s.versions, v.id = id → v.status = .draft) :
    (s.updateVersion id change).published = s.published := by
  unfold Skill.published Skill.updateVersion
  generalize s.versions = versions at drafts
  dsimp only
  induction versions with
  | nil => rfl
  | cons v rest ih =>
    have ih := ih fun w isW => drafts w (List.mem_cons_of_mem _ isW)
    rw [List.map_cons, List.filter_cons, List.filter_cons, ih]
    by_cases same : v.id = id
    · have isDraft := drafts v List.mem_cons_self same
      rw [if_pos same, (keeps v).2, isDraft]
      rfl
    · rw [if_neg same]

theorem updateRequest_request? {id : String} {change : CompileRequest → CompileRequest}
    (keeps : ∀ r, (change r).id = r.id ∧ (change r).versionId = r.versionId) (other : String)
    (r : CompileRequest) (found : s.request? other = some r) :
    ∃ r', (s.updateRequest id change).request? other = some r' ∧ r'.versionId = r.versionId := by
  refine ⟨if r.id = id then change r else r, ?_, ?_⟩
  · rw [Skill.request?_updateRequest fun w => (keeps w).1, found, Option.map_some]
  · split
    · exact (keeps r).2
    · rfl

theorem below_nextPublished {v : Version} (isPublished : v ∈ s.published) :
    v.versionNo < s.nextPublishedVersionNo := by
  have isNo : v.versionNo ∈ s.published.map Version.versionNo := List.mem_map_of_mem isPublished
  unfold Skill.nextPublishedVersionNo
  split
  · rename_i none_
    rw [List.max?_eq_none_iff.mp none_] at isNo
    cases isNo
  · rename_i current most
    have := (List.max?_eq_some_iff.mp most).2 _ isNo
    omega

/-! ### The invariant -/

structure Ranked (s : Skill) : Prop where
  drafted : Drafted s
  numbers : (s.published.map Version.versionNo).Nodup
  jobIds : (s.jobs.map CompileJob.id).Nodup
  jobs : ∀ j ∈ s.jobs, ∃ v, s.jobVersion? j = some v ∧ v.status = .published
  latest : ∀ id, s.definition.latestPublishedVersionId = some id → ∃ j ∈ s.jobs,
    j.held.status = .succeeded ∧ ∃ v, s.jobVersion? j = some v ∧ v.id = id

/-- The latest published version does not go back. -/
def Forward (s t : Skill) : Prop :=
  ∀ v, s.latest? = some v → ∃ w, t.latest? = some w ∧ v.versionNo ≤ w.versionNo

theorem Forward.refl (s : Skill) : Forward s s := fun v isLatest => ⟨v, isLatest, le_refl _⟩

theorem Forward.trans {u : Skill} (first : Forward s t) (second : Forward t u) : Forward s u := by
  intro v isLatest
  obtain ⟨w, isLatest', below⟩ := first v isLatest
  obtain ⟨x, isLatest'', below'⟩ := second w isLatest'
  exact ⟨x, isLatest'', below.trans below'⟩

theorem jobVersion?_version? {job : CompileJob} {v : Version} (found : s.jobVersion? job = some v) :
    s.version? v.id = some v := by
  obtain ⟨r, -, isVersion⟩ := Option.bind_eq_some_iff.mp found
  have same : v.id = r.versionId := by simpa using List.find?_some isVersion
  rw [same]
  exact isVersion

/-- The latest version is that of a job that succeeded. -/
theorem Ranked.latest_job (ranked : Ranked s) {v : Version} (isLatest : s.latest? = some v) :
    v.status = .published ∧ ∃ j ∈ s.jobs, j.held.status = .succeeded ∧ s.jobVersion? j = some v := by
  obtain ⟨id, isId, found⟩ := Option.bind_eq_some_iff.mp isLatest
  obtain ⟨j, isJob, succeeded, w, isVersion, rfl⟩ := ranked.latest id isId
  obtain rfl : w = v := Option.some.inj ((jobVersion?_version? isVersion).symm.trans found)
  obtain ⟨x, isVersion', published⟩ := ranked.jobs j isJob
  obtain rfl : x = w := Option.some.inj (isVersion'.symm.trans isVersion)
  exact ⟨published, j, isJob, succeeded, isVersion⟩

/-- A step that adds no version, makes no job succeed and leaves the latest version. -/
theorem Ranked.carried (ranked : Ranked s) (drafted : Drafted t) (carried : Carried s t)
    (published : t.published = s.published)
    (latest : t.definition.latestPublishedVersionId = s.definition.latestPublishedVersionId)
    (jobIds : t.jobs.map CompileJob.id = s.jobs.map CompileJob.id)
    (origin : ∀ j' ∈ t.jobs, ∃ j ∈ s.jobs, j'.requestId = j.requestId)
    (stays : ∀ j ∈ s.jobs, j.held.status = .succeeded → j ∈ t.jobs) : Ranked t ∧ Forward s t := by
  refine ⟨⟨drafted, published ▸ ranked.numbers, jobIds ▸ ranked.jobIds, ?_, ?_⟩, ?_⟩
  · intro j' isJob'
    obtain ⟨j, isJob, same⟩ := origin j' isJob'
    obtain ⟨v, isVersion, isPublished⟩ := ranked.jobs j isJob
    exact ⟨v, carried.jobVersion? same isVersion isPublished, isPublished⟩
  · intro id isLatest
    obtain ⟨j, isJob, succeeded, v, isVersion, same⟩ := ranked.latest id (latest ▸ isLatest)
    obtain ⟨w, isVersion', isPublished⟩ := ranked.jobs j isJob
    obtain rfl : w = v := Option.some.inj (isVersion'.symm.trans isVersion)
    exact ⟨j, stays j isJob succeeded, succeeded, w, carried.jobVersion? rfl isVersion isPublished, same⟩
  · intro v isLatest
    obtain ⟨isPublished, -⟩ := ranked.latest_job isLatest
    obtain ⟨id, isId, found⟩ := Option.bind_eq_some_iff.mp isLatest
    refine ⟨v, ?_, le_refl _⟩
    rw [Skill.latest?, latest, isId, Option.bind_some]
    exact carried.versions id v found isPublished

/-- Versions, requests and jobs stay what they are. -/
theorem Ranked.of_same (ranked : Ranked s) (drafted : Drafted t) (versions : t.versions = s.versions)
    (requests : t.requests = s.requests) (jobs : t.jobs = s.jobs)
    (latest : t.definition.latestPublishedVersionId = s.definition.latestPublishedVersionId) :
    Ranked t ∧ Forward s t :=
  ranked.carried drafted (.of_same versions requests) (by rw [Skill.published, versions]; rfl) latest
    (by rw [jobs]) (fun j isJob => ⟨j, jobs ▸ isJob, rfl⟩) fun _ isJob _ => jobs ▸ isJob

theorem job?_mem {jobId : String} {job : CompileJob} (found : s.job? jobId = some job) :
    job ∈ s.jobs ∧ job.id = jobId :=
  ⟨List.mem_of_find?_eq_some found, by simpa using List.find?_some found⟩

theorem updateJob_ids {jobId : String} {change : CompileJob → CompileJob}
    (keeps : ∀ j, (change j).id = j.id) :
    (s.updateJob jobId change).jobs.map CompileJob.id = s.jobs.map CompileJob.id := by
  unfold Skill.updateJob
  rw [List.map_map]
  refine List.map_congr_left fun j _ => ?_
  show (if j.id = jobId then change j else j).id = j.id
  split
  · exact keeps j
  · rfl

theorem mem_updateJob {jobId : String} {change : CompileJob → CompileJob} {j' : CompileJob}
    (isMoved : j' ∈ (s.updateJob jobId change).jobs) :
    ∃ j ∈ s.jobs, j' = if j.id = jobId then change j else j := by
  obtain ⟨j, isJob, rfl⟩ := List.mem_map.mp isMoved
  exact ⟨j, isJob, rfl⟩

/-- The other jobs. -/
theorem Ranked.other_job (ranked : Ranked s) {jobId : String} {job j : CompileJob}
    {change : CompileJob → CompileJob} (found : s.job? jobId = some job) (isJob : j ∈ s.jobs)
    (differ : j.held.status ≠ job.held.status) : j ∈ (s.updateJob jobId change).jobs := by
  obtain ⟨isFound, rfl⟩ := job?_mem found
  refine List.mem_map.mpr ⟨j, isJob, if_neg fun same => differ ?_⟩
  rw [List.inj_on_of_nodup_map ranked.jobIds isJob isFound same]

/-- The row of a job that has not succeeded changes, its requests too. -/
theorem Ranked.updateJob (ranked : Ranked s) {jobId : String} {job : CompileJob}
    {change : CompileJob → CompileJob} {u : Skill} (found : s.job? jobId = some job)
    (unsettled : job.held.status ≠ .succeeded) (drafted : Drafted (u.updateJob jobId change))
    (keeps : ∀ j, (change j).id = j.id ∧ (change j).requestId = j.requestId)
    (versions : u.versions = s.versions) (jobs : u.jobs = s.jobs)
    (latest : u.definition.latestPublishedVersionId = s.definition.latestPublishedVersionId)
    (requests : ∀ id r, s.request? id = some r →
      ∃ r', u.request? id = some r' ∧ r'.versionId = r.versionId) :
    Ranked (u.updateJob jobId change) ∧ Forward s (u.updateJob jobId change) := by
  have same : (u.updateJob jobId change).jobs = (s.updateJob jobId change).jobs := by
    unfold Skill.updateJob
    rw [jobs]
  refine ranked.carried drafted ⟨fun id v isVersion _ => ?_, requests⟩ ?_ latest ?_ ?_ ?_
  · show u.versions.find? _ = _
    rw [versions]
    exact isVersion
  · show u.versions.filter _ = _
    rw [versions]
    rfl
  · rw [same]
    exact updateJob_ids fun j => (keeps j).1
  · intro j' isJob'
    rw [same] at isJob'
    obtain ⟨j, isJob, rfl⟩ := mem_updateJob isJob'
    refine ⟨j, isJob, ?_⟩
    split
    · exact (keeps j).2
    · rfl
  · intro j isJob succeeded
    rw [same]
    exact ranked.other_job found isJob fun equal => unsettled (equal.symm.trans succeeded)

/-! ### The steps of a job -/

theorem keeps_requests (id : String) (r : CompileRequest) (found : s.request? id = some r) :
    ∃ r', s.request? id = some r' ∧ r'.versionId = r.versionId := ⟨r, found, rfl⟩

theorem Ranked.claim (ranked : Ranked s) {jobId : String} (stepped : claimJob jobId s = some t) :
    Ranked t ∧ Forward s t := by
  have drafted := ranked.drafted.jobStep (claimJob_step stepped)
  obtain ⟨job, found, stepped⟩ := Option.bind_eq_some_iff.mp stepped
  obtain ⟨held, claimed, rfl⟩ := Option.map_eq_some_iff.mp stepped
  have unsettled : job.held.status ≠ .succeeded := fun succeeded => by
    have := (Held.claim_spec claimed).2.1
    rw [Held.finished, succeeded] at this
    cases this
  exact ranked.updateJob found unsettled drafted (fun _ => ⟨rfl, rfl⟩) rfl rfl rfl keeps_requests

theorem Ranked.compile (ranked : Ranked s) {jobId : String} {status : RequestStatus}
    (stepped : Skills.compile jobId status s = some t) : Ranked t ∧ Forward s t := by
  have drafted := ranked.drafted.jobStep (compile_step stepped)
  obtain ⟨job, found, stepped⟩ := Option.bind_eq_some_iff.mp stepped
  obtain ⟨request, -, stepped⟩ := Option.bind_eq_some_iff.mp stepped
  split at stepped
  · cases stepped
  · rename_i may
    have running : job.held.status = .running := by
      by_contra not_running
      exact may (.inl not_running)
    have unsettled : job.held.status ≠ .succeeded := fun succeeded => by
      rw [running] at succeeded
      cases succeeded
    split at stepped
    · obtain rfl := Option.some.inj stepped
      exact ranked.updateJob found unsettled drafted (fun _ => ⟨rfl, rfl⟩) rfl rfl rfl keeps_requests
    · obtain rfl := Option.some.inj stepped
      exact ranked.updateJob found unsettled drafted (fun _ => ⟨rfl, rfl⟩) rfl rfl rfl
        (updateRequest_request? fun _ => ⟨rfl, rfl⟩)

/-- What the finaliser of an exhausted job leaves alone. -/
theorem finalizeExhausted_rows (job : CompileJob) (s : Skill) :
    (finalizeExhausted job s).versions = s.versions ∧ (finalizeExhausted job s).jobs = s.jobs ∧
      (finalizeExhausted job s).definition = s.definition ∧
      ∀ id r, s.request? id = some r →
        ∃ r', (finalizeExhausted job s).request? id = some r' ∧ r'.versionId = r.versionId := by
  unfold finalizeExhausted
  split
  · exact ⟨rfl, rfl, rfl, keeps_requests⟩
  · split
    · exact ⟨rfl, rfl, rfl, keeps_requests⟩
    · exact ⟨rfl, rfl, rfl, updateRequest_request? fun _ => ⟨rfl, rfl⟩⟩

theorem Ranked.drop (ranked : Ranked s) {jobId : String} (stepped : dropJob jobId s = some t) :
    Ranked t ∧ Forward s t := by
  have drafted := ranked.drafted.jobStep (dropJob_step stepped)
  obtain ⟨job, found, stepped⟩ := Option.bind_eq_some_iff.mp stepped
  split at stepped
  · cases stepped
  · rename_i may
    have unsettled : job.held.status ≠ .succeeded := fun succeeded => by
      rw [not_not.mp may] at succeeded
      cases succeeded
    obtain ⟨versions, jobs, definition, requests⟩ := finalizeExhausted_rows job s
    obtain rfl := Option.some.inj stepped
    by_cases last : job.held.exhausted = true
    · simp only [last, if_true] at drafted ⊢
      exact ranked.updateJob found unsettled drafted (fun _ => ⟨rfl, rfl⟩) versions jobs
        (by rw [definition]) requests
    · simp only [last] at drafted ⊢
      exact ranked.updateJob found unsettled drafted (fun _ => ⟨rfl, rfl⟩) rfl rfl rfl keeps_requests

/-- The version of a job that succeeded is made the latest one. -/
theorem Ranked.setLatest (ranked : Ranked s) {job : CompileJob} {v : Version} (isJob : job ∈ s.jobs)
    (succeeded : job.held.status = .succeeded) (isVersion : s.jobVersion? job = some v)
    (drafted : Drafted t) (versions : t.versions = s.versions) (requests : t.requests = s.requests)
    (jobs : t.jobs = s.jobs) (latest : t.definition.latestPublishedVersionId = some v.id) :
    Ranked t ∧ t.latest? = some v := by
  have same : ∀ j, t.jobVersion? j = s.jobVersion? j := fun j => by
    unfold Skill.jobVersion? Skill.request? Skill.version?
    rw [requests, versions]
  refine ⟨⟨drafted, ?_, jobs ▸ ranked.jobIds, fun j isJob => ?_, fun id isLatest => ?_⟩, ?_⟩
  · rw [Skill.published, versions]
    exact ranked.numbers
  · rw [same]
    exact ranked.jobs j (jobs ▸ isJob)
  · rw [latest] at isLatest
    exact ⟨job, jobs ▸ isJob, succeeded, v, (same job).trans isVersion, Option.some.inj isLatest⟩
  · rw [Skill.latest?, latest, Option.bind_some, Skill.version?, versions]
    exact jobVersion?_version? isVersion

/-- The version of a job that succeeds becomes the latest one. -/
theorem Ranked.finalize (ranked : Ranked s) {jobId : String} (ordered : Ordered s (.finalize jobId))
    (stepped : finalizePublish jobId s = some t) : Ranked t ∧ Forward s t := by
  have drafted := ranked.drafted.jobStep (finalizePublish_step stepped)
  obtain ⟨job, found, stepped⟩ := Option.bind_eq_some_iff.mp stepped
  obtain ⟨request, isRequest, stepped⟩ := Option.bind_eq_some_iff.mp stepped
  split at stepped
  · cases stepped
  rename_i may
  have running : job.held.status = .running := by
    by_contra not_running
    exact may (.inl not_running)
  have unsettled : job.held.status ≠ .succeeded := fun succeeded => by
    rw [running] at succeeded
    cases succeeded
  split at stepped
  · rename_i succeeded
    obtain rfl := Option.some.inj stepped
    obtain ⟨isJob, rfl⟩ := job?_mem found
    obtain ⟨v, isVersion, published⟩ := ranked.jobs job isJob
    have settled : Drafted (s.updateJob job.id fun job => { job with held := job.held.settle .succeeded }) :=
      ⟨ranked.drafted.draft, ranked.drafted.drafts, ranked.drafted.copies⟩
    have moved := ranked.updateJob found unsettled settled (fun _ => ⟨rfl, rfl⟩) rfl rfl rfl keeps_requests
    by_cases recorded : (s.record? job.recordId).isSome = true
    · simp only [recorded, if_true] at drafted ⊢
      have same : v.id = request.versionId := by
        rw [Skill.jobVersion?, isRequest, Option.bind_some] at isVersion
        simpa using List.find?_some isVersion
      obtain ⟨ranked', isLatest⟩ := moved.1.setLatest
        (List.mem_map.mpr ⟨job, isJob, if_pos rfl⟩) rfl isVersion drafted rfl rfl rfl
        (congrArg some same.symm)
      refine ⟨ranked', fun w wasLatest => ⟨v, isLatest, ?_⟩⟩
      obtain ⟨-, other, isOther, otherSucceeded, otherVersion⟩ := ranked.latest_job wasLatest
      have succeeds : s.succeeds job = true := by
        rw [Skill.succeeds, isRequest, Option.any_some, succeeded]
        rfl
      exact ordered job found succeeds v isVersion other isOther otherSucceeded w otherVersion
    · simp only [recorded] at drafted ⊢
      exact moved
  · obtain rfl := Option.some.inj stepped
    exact ranked.updateJob found unsettled drafted (fun _ => ⟨rfl, rfl⟩) rfl rfl rfl keeps_requests

/-! ### Publishes -/

/-- A version is added under the next number, with its job. -/
theorem Ranked.inserted (ranked : Ranked s) (new : Version) (job : CompileJob) (drafted : Drafted t)
    (carried : Carried s t) (published : t.published = s.published ++ [new])
    (isNext : new.versionNo = s.nextPublishedVersionNo) (jobs : t.jobs = s.jobs ++ [job])
    (freshJob : ∀ j ∈ s.jobs, j.id ≠ job.id) (isVersion : t.jobVersion? job = some new)
    (latest : t.definition.latestPublishedVersionId = s.definition.latestPublishedVersionId) :
    Ranked t ∧ Forward s t := by
  have isPublished : new ∈ t.published := by
    rw [published]
    exact List.mem_append_right _ (List.mem_singleton_self _)
  refine ⟨⟨drafted, ?_, ?_, ?_, ?_⟩, ?_⟩
  · rw [published, List.map_append]
    refine List.Nodup.append ranked.numbers (List.nodup_singleton _) ?_
    intro number isOld isNew
    obtain ⟨v, isVersion', rfl⟩ := List.mem_map.mp isOld
    have := below_nextPublished isVersion'
    rw [← isNext, ← List.mem_singleton.mp isNew] at this
    exact absurd this (lt_irrefl _)
  · rw [jobs, List.map_append]
    refine List.Nodup.append ranked.jobIds (List.nodup_singleton _) ?_
    intro id isOld isNew
    obtain ⟨j, isJob, rfl⟩ := List.mem_map.mp isOld
    exact freshJob j isJob (List.mem_singleton.mp isNew)
  · intro j isJob
    rw [jobs] at isJob
    rcases List.mem_append.mp isJob with isOld | isNew
    · obtain ⟨v, found, hasStatus⟩ := ranked.jobs j isOld
      exact ⟨v, carried.jobVersion? rfl found hasStatus, hasStatus⟩
    · rw [List.mem_singleton.mp isNew]
      exact ⟨new, isVersion, eq_of_beq (List.mem_filter.mp isPublished).2⟩
  · intro id isLatest
    obtain ⟨j, isJob, succeeded, v, found, same⟩ := ranked.latest id (latest ▸ isLatest)
    obtain ⟨w, found', hasStatus⟩ := ranked.jobs j isJob
    obtain rfl : w = v := Option.some.inj (found'.symm.trans found)
    refine ⟨j, ?_, succeeded, w, carried.jobVersion? rfl found hasStatus, same⟩
    rw [jobs]
    exact List.mem_append_left _ isJob
  · intro v isLatest
    obtain ⟨hasStatus, -⟩ := ranked.latest_job isLatest
    obtain ⟨id, isId, found⟩ := Option.bind_eq_some_iff.mp isLatest
    refine ⟨v, ?_, le_refl _⟩
    rw [Skill.latest?, latest, isId, Option.bind_some]
    exact carried.versions id v found hasStatus

theorem Ranked.commit (ranked : Ranked s) {recordId versionId requestId jobId : String}
    (ordered : Ordered s (.commit recordId versionId requestId jobId))
    (stepped : commitPublish host recordId versionId requestId jobId s = some t) :
    Ranked t ∧ Forward s t := by
  have drafted := ranked.drafted.commit stepped
  obtain ⟨p, bundle, document, versionNo, found, isNumbered, newVersion, newRequest, newJob, rfl⟩ :=
    commit_spec stepped
  obtain ⟨isPublish, rfl⟩ := publish?_mem found
  have isNext : s.nextPublishedVersionNo = versionNo :=
    ordered p found versionNo (by rw [isNumbered]; exact rfl)
  have keeps := syncedDraft_keeps p.draft bundle.headCommitSha document
  have drafts : ∀ v ∈ s.versions, v.id = p.draft.id → v.status = .draft := fun v isVersion isDraft =>
    ranked.drafted.drafts v isVersion (isDraft.trans (ranked.drafted.copies p isPublish))
  refine ranked.inserted (publishedVersion versionId p bundle document versionNo) _ drafted
    ⟨fun id v isVersion isPublished => ?_, fun id r isRequest => ⟨r, ?_, rfl⟩⟩ ?_ isNext.symm rfl
    (fun j isJob => newJob j isJob) ?_ rfl
  · exact find?_append_old (updateVersion_version? keeps drafts id v isVersion isPublished)
  · exact find?_append_old isRequest
  · show List.filter _ (_ ++ _) = _
    rw [List.filter_append]
    exact congrArg₂ _ (updateVersion_published keeps drafts) rfl
  · have isRequest : List.find? (fun r : CompileRequest => r.id == requestId) (s.requests ++
        [{ id := requestId, versionId := versionId, sourceCommitSha := bundle.headCommitSha }]) =
        some { id := requestId, versionId := versionId, sourceCommitSha := bundle.headCommitSha } :=
      find?_append_new (fun r isOld => beq_false_of_ne (newRequest r isOld)) (beq_self_eq_true _)
    refine (congrArg (Option.bind · _) isRequest).trans ?_
    refine find?_append_new (fun v isOld => beq_false_of_ne ?_) (beq_self_eq_true _)
    obtain ⟨w, isW, same, -⟩ := mem_updateVersion keeps isOld
    rw [same]
    exact newVersion w isW

theorem Ranked.step (ranked : Ranked s) {e : PublishEvent} (ordered : Ordered s e)
    (stepped : s.step host e = some t) : Ranked t ∧ Forward s t := by
  have drafted := ranked.drafted.step stepped
  cases e with
  | editSource sha request files =>
    obtain ⟨branch, -, rfl⟩ := Option.map_eq_some_iff.mp stepped
    exact ranked.of_same drafted rfl rfl rfl rfl
  | editDraft sourceCommitSha document =>
    obtain rfl := Option.some.inj stepped
    exact ranked.carried drafted
      ⟨updateVersion_version? (fun _ => ⟨rfl, rfl⟩) ranked.drafted.drafts, keeps_requests⟩
      (updateVersion_published (fun _ => ⟨rfl, rfl⟩) ranked.drafted.drafts) rfl rfl
      (fun j isJob => ⟨j, isJob, rfl⟩) fun _ isJob _ => isJob
  | accept recordId publishReason =>
    obtain ⟨draft, -, -, rfl⟩ := accept_spec stepped
    exact ranked.of_same drafted rfl rfl rfl rfl
  | read recordId =>
    obtain ⟨p, stage, -, -, rfl⟩ := advance_spec stepped
    exact ranked.of_same drafted rfl rfl rfl rfl
  | commit recordId versionId requestId jobId => exact ranked.commit ordered stepped
  | fail recordId =>
    obtain ⟨p, -, -, rfl⟩ := fail_spec stepped
    exact ranked.of_same drafted rfl rfl rfl rfl
  | claim jobId => exact ranked.claim stepped
  | compile jobId status => exact ranked.compile stepped
  | finalize jobId => exact ranked.finalize ordered stepped
  | drop jobId => exact ranked.drop stepped

theorem ranked_created (branch : Branch) (definition : Definition) (document : SkillDocument) :
    Ranked (.created branch definition document) where
  drafted := drafted_created branch definition document
  numbers := List.nodup_nil
  jobIds := List.nodup_nil
  jobs _ isJob := absurd isJob List.not_mem_nil
  latest _ isLatest := nomatch isLatest

/-- **In every run in which numbers are used while they are the next ones and jobs succeed in the order
of their versions, the numbers of published versions are distinct and the latest one never goes back.** -/
theorem published_ordered {branch : Branch} {definition : Definition} {document : SkillDocument}
    (before : Run (Skill.step host) Ordered (.created branch definition document) s)
    (after : Run (Skill.step host) Ordered s t) :
    (t.published.map Version.versionNo).Nodup ∧ Forward s t := by
  have preserved : ∀ s e t, Ranked s → Ordered s e → s.step host e = some t → Ranked t :=
    fun s e t ranked ordered stepped => (ranked.step ordered stepped).1
  have reached := before.invariant preserved (ranked_created branch definition document)
  refine ⟨(after.invariant preserved reached).numbers, ?_⟩
  exact after.related Forward.refl (fun _ _ _ first second => first.trans second) preserved
    (fun s e t ranked ordered stepped => (ranked.step ordered stepped).2) reached

/-! ### Overlapping publishes -/

def reads (recordId : String) : List PublishEvent := List.replicate 5 (.read recordId)

def compileSucceeds (jobId : String) : List PublishEvent :=
  [.compile jobId .running, .compile jobId .succeeded, .finalize jobId]

def firstPublish : List PublishEvent :=
  [PublishEvent.accept "record-1" ""] ++ reads "record-1" ++
    [PublishEvent.commit "record-1" "version-1" "request-1" "job-1"]

def secondPublish : List PublishEvent :=
  [PublishEvent.accept "record-2" ""] ++ reads "record-2" ++
    [PublishEvent.commit "record-2" "version-2" "request-2" "job-2"]

/-- Both publishes read their number before either inserts its version. -/
def sameNumber : List PublishEvent :=
  [PublishEvent.accept "record-1" "", .accept "record-2" ""] ++ reads "record-1" ++ reads "record-2" ++
    [PublishEvent.commit "record-1" "version-1" "request-1" "job-1",
      .commit "record-2" "version-2" "request-2" "job-2"]

/-- Two workers: the job of the second version succeeds first. -/
def secondFirst : List PublishEvent :=
  firstPublish ++ secondPublish ++ [PublishEvent.claim "job-1", .claim "job-2"] ++ compileSucceeds "job-2"

/-- Two publishes with one number, and a latest version that is replaced by the one before it. -/
theorem publishes_overtaken :
    (¬ ∀ t, Run (Skill.step plainHost) anyStep newSkill t →
      (t.published.map Version.versionNo).Nodup) ∧
    ¬ ∀ s t, Run (Skill.step plainHost) anyStep newSkill s → Run (Skill.step plainHost) anyStep s t →
      Forward s t := by
  constructor
  · intro always
    obtain ⟨t, followed, same⟩ : ∃ t,
        follow (Skill.step plainHost) anyStep newSkill sameNumber = some t ∧
        (!decide (t.published.map Version.versionNo).Nodup) = true :=
      (Option.any_eq_true ..).mp (by decide +kernel)
    have distinct := always t (run_of_follow followed)
    simp [distinct] at same
  · intro always
    have checked : ((follow (Skill.step plainHost) anyStep newSkill secondFirst).bind fun s =>
        (follow (Skill.step plainHost) anyStep s (compileSucceeds "job-1")).map fun t => (s, t)).any
        (fun (s, t) => s.latest?.any fun v => t.latest?.any fun w => decide (w.versionNo < v.versionNo)) =
        true := by
      decide +kernel
    obtain ⟨s, ⟨s', t⟩, first, second, back⟩ := checked_run checked
    obtain ⟨u, followed, same⟩ := Option.map_eq_some_iff.mp second
    obtain ⟨rfl, rfl⟩ := Prod.mk.inj same
    obtain ⟨v, isLatest, back⟩ := (Option.any_eq_true ..).mp back
    obtain ⟨w, isLatest', below⟩ := (Option.any_eq_true ..).mp back
    obtain ⟨w', isLatest'', atMost⟩ := always s u (run_of_follow first) (run_of_follow followed) v isLatest
    obtain rfl : w = w' := Option.some.inj (isLatest'.symm.trans isLatest'')
    exact absurd (of_decide_eq_true below) (Nat.not_lt.mpr atMost)

/-- One publish after the other. -/
theorem published_ordered_twice : ∃ s t, Run (Skill.step plainHost) Ordered newSkill s ∧
    Run (Skill.step plainHost) Ordered s t ∧ t.published.length = 2 ∧
    (t.published.map Version.versionNo).Nodup ∧ Forward s t := by
  have checked : ((follow (Skill.step plainHost) Ordered newSkill
      (firstPublish ++ [PublishEvent.claim "job-1"] ++ compileSucceeds "job-1")).bind fun s =>
        follow (Skill.step plainHost) Ordered s
          (secondPublish ++ [PublishEvent.claim "job-2"] ++ compileSucceeds "job-2")).any
      (fun t => t.published.length == 2) = true := by
    decide +kernel
  obtain ⟨s, t, first, second, two⟩ := checked_run checked
  exact ⟨s, t, run_of_follow first, run_of_follow second, beq_iff_eq.mp two,
    published_ordered (run_of_follow first) (run_of_follow second)⟩

end Psop.Skills
