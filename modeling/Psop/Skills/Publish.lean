import Psop.Jobs.Held
import Psop.Skills.Source
import Psop.Tables

/-!
Publishing a skill.

`publish_skill` records the request, reads the branch of the skill file by file, and then inserts the
published version together with a compile job. The job compiles the version and, in a transaction of
its own, writes the outcome: `_finalize_publish_job` makes the version the latest published one. A
`Skill` is the rows of one skill with its branch, its compile jobs and the publish requests in flight;
between two steps of a publish anything else may happen. A session reads a row once and keeps what it
read, so a publish works on copies of the definition and the draft.

An operation is undefined where the source raises. What a publish that raised leaves is `fail`.
-/
namespace Psop.Skills

open Psop.Jobs (Held)

structure Host where
  /-- `parse_skill_yaml`, `none` where it raises. -/
  parseSkillYaml : String → Option SkillDocument
  runtimeJobMaxAttempts : Nat

/-! ### Rows -/

structure Definition where
  key : String
  name : String
  description : String
  defaultBranch : String
  latestDraftVersionId : String
  latestPublishedVersionId : Option String := none
deriving Repr

inductive VersionStatus where
  | draft | published
deriving DecidableEq, Repr

structure Version where
  id : String
  versionNo : Nat
  status : VersionStatus
  sourceRef : String
  sourceCommitSha : Option String := none
  /-- `manifest_snapshot`: the dump of a document, kept as the document. -/
  manifestSnapshot : Option SkillDocument := none
  runtimePolicySnapshot : Option Json := none
deriving Repr

inductive PublishStatus where
  | compiling | published | failed
deriving DecidableEq, Repr

structure PublishRecord where
  id : String
  versionId : String
  publishReason : String
  publishStatus : PublishStatus
  publishedCommitSha : String
  releaseRef : String
deriving Repr

inductive RequestStatus where
  | pending | running | succeeded | failed | cancelled
deriving DecidableEq, Repr

structure CompileRequest where
  id : String
  versionId : String
  sourceCommitSha : String
  status : RequestStatus := .pending
deriving Repr

/-- A compile job; `compiled` once its attempt has the outcome of the request. -/
structure CompileJob where
  id : String
  requestId : String
  recordId : String
  held : Held
  compiled : Bool := false
deriving Repr

inductive PublishStage where
  | accepted
  | head (sha : String)
  | readme (sha readme : String)
  | skillMd (sha readme skillMd : String)
  | loaded (bundle : SourceBundle)
  | numbered (bundle : SourceBundle) (document : SkillDocument) (versionNo : Nat)
  | finished
deriving Repr

/-- A publish request in flight, with the rows its session holds. -/
structure Publish where
  recordId : String
  definition : Definition
  draft : Version
  stage : PublishStage
deriving Repr

structure Skill where
  branch : Branch
  definition : Definition
  versions : List Version
  records : List PublishRecord
  requests : List CompileRequest
  jobs : List CompileJob
  publishes : List Publish

namespace Skill

def version? (id : String) (s : Skill) : Option Version := s.versions.find? fun v => v.id == id

def record? (id : String) (s : Skill) : Option PublishRecord := s.records.find? fun r => r.id == id

def request? (id : String) (s : Skill) : Option CompileRequest := s.requests.find? fun r => r.id == id

def job? (id : String) (s : Skill) : Option CompileJob := s.jobs.find? fun j => j.id == id

def publish? (recordId : String) (s : Skill) : Option Publish :=
  s.publishes.find? fun p => p.recordId == recordId

def updateVersion (id : String) (change : Version → Version) (s : Skill) : Skill :=
  { s with versions := s.versions.map fun v => if v.id = id then change v else v }

def updateRecord (id : String) (change : PublishRecord → PublishRecord) (s : Skill) : Skill :=
  { s with records := s.records.map fun r => if r.id = id then change r else r }

def updateRequest (id : String) (change : CompileRequest → CompileRequest) (s : Skill) : Skill :=
  { s with requests := s.requests.map fun r => if r.id = id then change r else r }

def updateJob (id : String) (change : CompileJob → CompileJob) (s : Skill) : Skill :=
  { s with jobs := s.jobs.map fun j => if j.id = id then change j else j }

theorem version?_updateVersion {id : String} {change : Version → Version}
    (keeps : ∀ v, (change v).id = v.id) (other : String) (s : Skill) :
    (s.updateVersion id change).version? other =
      (s.version? other).map fun v => if v.id = id then change v else v :=
  find?_update keeps s.versions other

theorem record?_updateRecord {id : String} {change : PublishRecord → PublishRecord}
    (keeps : ∀ r, (change r).id = r.id) (other : String) (s : Skill) :
    (s.updateRecord id change).record? other =
      (s.record? other).map fun r => if r.id = id then change r else r :=
  find?_update keeps s.records other

theorem request?_updateRequest {id : String} {change : CompileRequest → CompileRequest}
    (keeps : ∀ r, (change r).id = r.id) (other : String) (s : Skill) :
    (s.updateRequest id change).request? other =
      (s.request? other).map fun r => if r.id = id then change r else r :=
  find?_update keeps s.requests other

theorem job?_updateJob {id : String} {change : CompileJob → CompileJob}
    (keeps : ∀ j, (change j).id = j.id) (other : String) (s : Skill) :
    (s.updateJob id change).job? other =
      (s.job? other).map fun j => if j.id = id then change j else j :=
  find?_update keeps s.jobs other

def setStage (recordId : String) (stage : PublishStage) (s : Skill) : Skill :=
  { s with publishes := s.publishes.map fun p =>
      if p.recordId = recordId then { p with stage := stage } else p }

/-- The published versions. -/
def published (s : Skill) : List Version := s.versions.filter fun v => v.status == .published

/-- `next_published_version_no` -/
def nextPublishedVersionNo (s : Skill) : Nat :=
  match (s.published.map Version.versionNo).max? with
  | none => 1
  | some current => current + 1

end Skill

/-! ### The document of a publish -/

/-- `_document_from_version_snapshot` -/
def documentFromVersionSnapshot (host : Host) (version : Version) (skillYamlContent : String) :
    Option SkillDocument :=
  match version.manifestSnapshot with
  | some document => some document
  | none => if skillYamlContent = "" then none else host.parseSkillYaml skillYamlContent

/-- `_validate_manifest_identity` -/
def identityMatches (definition : Definition) (document : SkillDocument) : Bool :=
  document.key == definition.key && document.name == definition.name &&
    document.description == definition.description

/-- The document a publish freezes. -/
def publishDocument (host : Host) (p : Publish) (bundle : SourceBundle) : Option SkillDocument :=
  (documentFromVersionSnapshot host p.draft bundle.skillYamlContent).bind fun document =>
    let document := document.withPromptMaterial (some bundle.readmeContent) (some bundle.skillMdContent)
    if identityMatches p.definition document then some document else none

/-! ### publish_skill -/

/-- The first transaction of `publish_skill`. -/
def accept (recordId publishReason : String) (s : Skill) : Option Skill :=
  (s.version? s.definition.latestDraftVersionId).bind fun draft =>
    if (s.record? recordId).isSome then none
    else some { s with
      records := s.records ++
        [{ id := recordId, versionId := draft.id, publishReason := publishReason
           publishStatus := .compiling, publishedCommitSha := draft.sourceCommitSha.getD ""
           releaseRef := s.definition.defaultBranch }]
      publishes := s.publishes ++ [⟨recordId, s.definition, draft, .accepted⟩] }

/-- One step of a publish that writes nothing: the requests of `get_skill_source`, in their order, and
then the number of the version. -/
def readOn (host : Host) (s : Skill) (p : Publish) : Option PublishStage :=
  let read := fun path => fileAt path s.branch.head.files
  match p.stage with
  | .accepted => some (.head s.branch.head.sha)
  | .head sha => (read "README.md").map (.readme sha)
  | .readme sha readme => (read "SKILL.md").map (.skillMd sha readme)
  | .skillMd sha readme skillMd => (read "skill.yaml").map fun skillYaml =>
      .loaded ⟨readme, skillMd, skillYaml, sha⟩
  | .loaded bundle => (publishDocument host p bundle).map fun document =>
      .numbered bundle document s.nextPublishedVersionNo
  | .numbered .. | .finished => none

def advancePublish (host : Host) (recordId : String) (s : Skill) : Option Skill :=
  (s.publish? recordId).bind fun p => (readOn host s p).map fun stage => s.setStage recordId stage

/-- The version a publish inserts. -/
def publishedVersion (versionId : String) (p : Publish) (bundle : SourceBundle)
    (document : SkillDocument) (versionNo : Nat) : Version :=
  { id := versionId, versionNo := versionNo, status := .published
    sourceRef := p.definition.defaultBranch, sourceCommitSha := some bundle.headCommitSha
    manifestSnapshot := some document, runtimePolicySnapshot := some document.runtimePolicy }

/-- The draft brought in line with what a publish read: a column is written only where it differs from
the row the session holds. -/
def syncedDraft (held : Version) (sha : String) (document : SkillDocument) (row : Version) : Version :=
  { row with
    sourceCommitSha := if held.sourceCommitSha = some sha then row.sourceCommitSha else some sha
    manifestSnapshot := if held.manifestSnapshot.any fun old => old.same document
      then row.manifestSnapshot else some document
    runtimePolicySnapshot := if held.runtimePolicySnapshot.any fun old =>
        Json.pyEq old document.runtimePolicy
      then row.runtimePolicySnapshot else some document.runtimePolicy }

/-- What a publish adds to the tables. -/
def Skill.insertPublished (host : Host) (version : Version) (sha recordId requestId jobId : String)
    (s : Skill) : Skill :=
  { s with
    versions := s.versions ++ [version]
    requests := s.requests ++
      [{ id := requestId, versionId := version.id, sourceCommitSha := sha }]
    jobs := s.jobs ++
      [{ id := jobId, requestId := requestId, recordId := recordId
         held := { maxAttempts := host.runtimeJobMaxAttempts } }] }

/-- The second transaction of `publish_skill`. A commit without a sha has no compile request. -/
def commitPublish (host : Host) (recordId versionId requestId jobId : String) (s : Skill) :
    Option Skill :=
  (s.publish? recordId).bind fun p =>
    match p.stage with
    | .numbered bundle document versionNo =>
      let sha := bundle.headCommitSha
      if sha = "" ∨ (s.version? versionId).isSome ∨ (s.request? requestId).isSome ∨
          (s.job? jobId).isSome then none
      else some ((((s.updateVersion p.draft.id (syncedDraft p.draft sha document)).insertPublished host
        (publishedVersion versionId p bundle document versionNo) sha recordId requestId
        jobId).updateRecord recordId fun record => { record with
          versionId := versionId, publishedCommitSha := sha }).setStage recordId .finished)
    | _ => none

/-- A publish that raised before its second commit. -/
def failPublish (recordId : String) (s : Skill) : Option Skill :=
  (s.publish? recordId).bind fun p =>
    match p.stage with
    | .finished => none
    | _ => some ((s.updateRecord recordId fun record => { record with
        publishStatus := .failed }).setStage recordId .finished)

/-! ### Compile jobs -/

def claimJob (jobId : String) (s : Skill) : Option Skill :=
  (s.job? jobId).bind fun job => job.held.claim.map fun held =>
    s.updateJob jobId fun job => { job with held := held, compiled := false }

/-- A commit of `process_compile_request`, which returns a request that succeeded as it is. -/
def compile (jobId : String) (status : RequestStatus) (s : Skill) : Option Skill := do
  let job ← s.job? jobId
  let request ← s.request? job.requestId
  if job.held.status ≠ .running ∨ job.compiled ∨ status = .pending ∨ status = .cancelled then none
  else if request.status = .succeeded then some (s.updateJob jobId fun job => { job with compiled := true })
  else some ((s.updateRequest request.id fun request => { request with status := status }).updateJob
    jobId fun job => { job with compiled := status != .running })

/-- `_finalize_publish_job` -/
def finalizePublish (jobId : String) (s : Skill) : Option Skill := do
  let job ← s.job? jobId
  let request ← s.request? job.requestId
  if job.held.status ≠ .running ∨ !job.compiled then none
  else if request.status = .succeeded then
    let s := if (s.record? job.recordId).isSome then
        ({ s with definition := { s.definition with
            latestPublishedVersionId := some request.versionId } }.updateRecord job.recordId
          fun record => { record with publishStatus := .published })
      else s
    some (s.updateJob jobId fun job => { job with held := job.held.settle .succeeded })
  else
    let s := s.updateRecord job.recordId fun record => { record with publishStatus := .failed }
    some (s.updateJob jobId fun job => { job with held := job.held.settle .failed })

/-- `finalize_exhausted_compile_job` -/
def finalizeExhausted (job : CompileJob) (s : Skill) : Skill :=
  match s.request? job.requestId with
  | none => s
  | some request =>
    if request.status = .succeeded ∨ request.status = .failed ∨ request.status = .cancelled then s
    else (s.updateRequest request.id fun request => { request with status := .failed }).updateRecord
      job.recordId fun record =>
        if record.publishStatus = .published then record else { record with publishStatus := .failed }

/-- An attempt that ended without a result. -/
def dropJob (jobId : String) (s : Skill) : Option Skill :=
  (s.job? jobId).bind fun job =>
    if job.held.status ≠ .running then none
    else
      let s := if job.held.exhausted then finalizeExhausted job s else s
      some (s.updateJob jobId fun job => { job with held := job.held.drop, compiled := false })

/-! ### Steps -/

inductive PublishEvent where
  /-- A commit of another request. -/
  | editSource (sha request : String) (files : Files)
  /-- Another request writes the draft. -/
  | editDraft (sourceCommitSha : Option String) (document : SkillDocument)
  | accept (recordId publishReason : String)
  | read (recordId : String)
  | commit (recordId versionId requestId jobId : String)
  | fail (recordId : String)
  | claim (jobId : String)
  | compile (jobId : String) (status : RequestStatus)
  | finalize (jobId : String)
  | drop (jobId : String)

def editDraft (sourceCommitSha : Option String) (document : SkillDocument) (s : Skill) : Skill :=
  s.updateVersion s.definition.latestDraftVersionId fun draft => { draft with
    sourceCommitSha := sourceCommitSha, manifestSnapshot := some document
    runtimePolicySnapshot := some document.runtimePolicy }

def Skill.step (host : Host) (s : Skill) : PublishEvent → Option Skill
  | .editSource sha request files => (s.branch.advance sha request files).map fun branch =>
      { s with branch := branch }
  | .editDraft sourceCommitSha document => some (Skills.editDraft sourceCommitSha document s)
  | .accept recordId publishReason => Skills.accept recordId publishReason s
  | .read recordId => advancePublish host recordId s
  | .commit recordId versionId requestId jobId => commitPublish host recordId versionId requestId jobId s
  | .fail recordId => failPublish recordId s
  | .claim jobId => claimJob jobId s
  | .compile jobId status => Skills.compile jobId status s
  | .finalize jobId => finalizePublish jobId s
  | .drop jobId => dropJob jobId s

/-- A skill that was just created. -/
def Skill.created (branch : Branch) (definition : Definition) (document : SkillDocument) : Skill where
  branch := branch
  definition := { definition with latestPublishedVersionId := none }
  versions := [{ id := definition.latestDraftVersionId, versionNo := 0, status := .draft
                 sourceRef := definition.defaultBranch, sourceCommitSha := some branch.head.sha
                 manifestSnapshot := some document
                 runtimePolicySnapshot := some document.runtimePolicy }]
  records := []
  requests := []
  jobs := []
  publishes := []

end Psop.Skills
