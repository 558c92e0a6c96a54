import Psop.Compiler.Progress
import Psop.Compiler.Stable
import Psop.Skills.Latest

/-!
The attempts of a compile job.

`process_compile_job` works on one compile request: it reads the frozen source, checks the manifest,
asks the compiler agent at most twice, validates its candidate, stores the artifact and at last settles
the job with its publish record. Each mark of its progress is a commit of its own, so an attempt may
end between any two of them: its worker stops, its lease expires or its handler raises. `Compile` is the
rows of one request with what its running attempt holds; a step is one commit.

`published_whole` says what a job that succeeded has left, `percent_full_iff` that a hundred percent is
shown of such jobs only. `stored_never_again` is about an attempt that ends right after the commit of
its artifact: a request has one artifact at most, so no later attempt gets through. `compile_refines`
relates the attempts to the compile jobs of `Skill`.
-/
namespace Psop.Compiler

open Json
open Psop.Jobs (Held)
open Psop.Runtime (JobStatus)
open Psop.Skills (PublishEvent PublishStatus RequestStatus Skill)

/-! ### Artifacts -/

/-- What an artifact is stamped with before it is stored. -/
structure CompileIdentity where
  compileRequestId : String
  skillId : String
  skillKey : String
  skillName : String
  versionId : String
  versionNo : Nat
  sourceCommitSha : String

def CompileIdentity.skill (identity : CompileIdentity) : Fields :=
  [("id", str identity.skillId), ("key", str identity.skillKey), ("name", str identity.skillName),
    ("version_id", str identity.versionId), ("version_no", num identity.versionNo),
    ("source_commit_sha", str identity.sourceCommitSha)]

/-- The artifact as it is stored; undefined where its `skill` is no dict. -/
def stampArtifact (identity : CompileIdentity) : Json → Option Json
  | obj artifact =>
    let artifact := setKey "compile_request_id" (str identity.compileRequestId) artifact
    match lookup "skill" artifact with
    | none => some (obj (setKey "skill" (obj identity.skill) artifact))
    | some (obj skill) => some (obj (setKey "skill" (obj (union skill identity.skill)) artifact))
    | some _ => none
  | _ => none

/-- What the interpreter may rely on: the checks of the validator pass as the artifact stands, and its
summaries are those of its own graph. -/
structure Interpretable (artifact : Fields) : Prop where
  passes : hasErrors (validateArtifact artifact) = false
  graph : lookup "graph_summary" artifact =
    some (buildGraphSummary (firstOf ["nodes"] artifact).items)
  capability : lookup "capability_summary" artifact = some (buildCapabilitySummary
    (firstOf ["nodes"] artifact).items (firstOf ["runtime_contract"] artifact))

def SoundArtifact (artifact : Json) : Prop := ∃ fs, artifact = obj fs ∧ Interpretable fs

/-- A stored artifact, with the request it belongs to. -/
def StoredSound (identity : CompileIdentity) (artifact : Json) : Prop :=
  SoundArtifact artifact ∧ artifact.field "compile_request_id" = str identity.compileRequestId

/-- The keys that are added after the checks. -/
def stampedKeys : List String := ["compile_request_id", "skill", "compiler_metadata"]

/-! ### An attempt -/

/-- Where an attempt stands, after the commit that brought it there. -/
inductive Point where
  | begin
  | loading
  | loaded
  | checking
  | checked
  | calling (repair : Bool)
  | answered (repair : Bool) (candidate metadata : Json)
  | validating (repair : Bool) (candidate metadata : Json)
  | accepted (artifact : Json)
  | emitting (artifact : Json)
  | emitted
  | gaveUp (stage : StageKey) (message : String)
  | compiled

/-- How an invocation of the compiler agent ends. -/
inductive AgentAnswer where
  | failed (message : String)
  /-- The run succeeded and left no readable candidate. -/
  | unreadable (message : String)
  | candidate (candidate metadata : Json)

/-- The rows of a compile request. `record` is the status of its publish record, if it has one;
`latest` says whether its job made its version the latest one. -/
structure Compile where
  status : RequestStatus := .pending
  errorMessage : String := ""
  artifact : Option Json := none
  job : Held
  lastError : String := ""
  progress : PublishProgress
  record : Option PublishStatus
  latest : Bool := false
  session : Option Point := none

/-- A request that was just queued. -/
def Compile.queued (identity : CompileIdentity) (maxAttempts : Nat) (record : Option PublishStatus) :
    Compile where
  job := { maxAttempts := maxAttempts }
  progress := buildPublishProgressPayload identity.sourceCommitSha
  record := record

namespace Point

/-- The stage an attempt stands in, with the status it is marked with. -/
def mark : Point → Option (StageKey × StageStatus)
  | begin | compiled => none
  | loading => some (.sourceLoaded, .running)
  | loaded => some (.sourceLoaded, .succeeded)
  | checking => some (.manifestChecked, .running)
  | checked => some (.manifestChecked, .succeeded)
  | calling _ => some (.agentCompiling, .running)
  | answered .. => some (.agentCompiling, .succeeded)
  | validating .. => some (.artifactValidating, .running)
  | accepted _ => some (.artifactValidating, .succeeded)
  | emitting _ => some (.artifactEmitting, .running)
  | emitted => some (.artifactEmitting, .succeeded)
  | gaveUp stage _ => some (stage, .failed)

/-- The artifact a session holds and has not stored. -/
def artifact? : Point → Option Json
  | accepted artifact | emitting artifact => some artifact
  | _ => none

end Point

namespace Compile

/-- `progress.mark`, with the point the attempt is at afterwards. -/
def enter (point : Point) (message errorMessage : String) (c : Compile) : Compile :=
  match point.mark with
  | some (key, status) => { c with
      progress := markPublishStage key status message none errorMessage c.progress
      session := some point }
  | none => { c with session := some point }

/-- The request has its outcome. -/
def settleRequest (status : RequestStatus) (errorMessage : String) (c : Compile) : Compile :=
  { c with status := status, errorMessage := errorMessage, session := some .compiled }

/-- The candidate of the first call is sent back once; the second one ends the attempt. -/
def sendBack (repair : Bool) (stage : StageKey) (marked message : String) (c : Compile) : Compile :=
  if repair then c.enter (.gaveUp stage message) marked marked
  else c.enter (.calling true) "正在根据校验结果请求 psop.compiler 修正 EG candidate。" ""

def receive (repair : Bool) (answer : AgentAnswer) (c : Compile) : Compile :=
  match answer with
  | .failed message => c.sendBack repair .agentCompiling message
      "psop.compiler 修正后仍未成功生成候选产物。"
  | .unreadable message => c.sendBack repair .agentCompiling message
      "psop.compiler 修正后仍未返回合法 compiler candidate。"
  | .candidate candidate metadata => c.enter (.answered repair candidate metadata)
      "psop.compiler 已提交 EG candidate。" ""

/-- `validate_and_normalize_artifact` on the candidate; undefined where it raises. -/
def validate (repair : Bool) (candidate metadata : Json) (c : Compile) : Option Compile :=
  (validateAndNormalizeArtifact candidate).map fun result =>
    match result.artifact with
    | some (obj artifact) => c.enter (.accepted (obj (setKey "compiler_metadata" metadata artifact)))
        "EG artifact 已通过 formal-v5 校验。" ""
    | _ => c.sendBack repair .artifactValidating
        "psop.compiler 修正后仍未生成通过 formal-v5 校验的 EG artifact。"
        "psop.compiler 修正后仍未生成通过 formal-v5 校验的 EG artifact。"

/-- The artifact is added; the table has one row for a request at most. -/
def emit (identity : CompileIdentity) (artifact : Json) (c : Compile) : Option Compile :=
  match c.artifact, stampArtifact identity artifact with
  | none, some stored => some ({ c with artifact := some stored }.enter .emitted
      "EG 编译产物已写入。" "")
  | _, _ => none

/-- `_finalize_publish_job` -/
def finalizePublishJob (c : Compile) : Compile :=
  let progress := markPublishStage .publishFinalizing .running "正在写入发布终态。" none "" c.progress
  if c.status = .succeeded then
    { c with
      record := c.record.map fun _ => .published
      latest := c.latest || c.record.isSome
      job := c.job.settle .succeeded
      lastError := ""
      progress := markPublishStage .publishFinalizing .succeeded
        (if c.record.isSome then "发布完成，最新可运行版本已更新。" else "编译完成，EG artifact 已生成。")
        (some .succeeded) "" progress
      session := none }
  else
    let errorMessage := if c.errorMessage ≠ "" then c.errorMessage
      else if c.record.isSome then "编译失败，发布未生效。" else "编译失败，未生成可用 EG artifact。"
    { c with
      record := c.record.map fun _ => .failed
      job := c.job.settle .failed
      lastError := errorMessage
      progress := markPublishStage .publishFinalizing .failed errorMessage (some .failed) errorMessage
        progress
      session := none }

/-- The next commit of an attempt that needs no answer from outside. -/
def go (identity : CompileIdentity) (c : Compile) : Option Compile :=
  c.session.bind fun
  | .begin =>
    if c.status = .succeeded then some { c with session := some .compiled }
    else some ({ c with status := .running }.enter .loading
      "正在读取冻结 commit 下的 Skill source。" "")
  | .loading => some (c.enter .loaded
      ("已读取冻结 commit " ++ shortSha identity.sourceCommitSha ++ "。") "")
  | .loaded => some (c.enter .checking "正在校验发布版本 manifest snapshot。" "")
  | .checked => some (c.enter (.calling false)
      "正在调用 psop.compiler 生成 formal-v5 EG candidate。" "")
  | .answered repair candidate metadata => some (c.enter (.validating repair candidate metadata)
      "正在执行 formal-v5 确定性校验。" "")
  | .validating repair candidate metadata => c.validate repair candidate metadata
  | .accepted artifact => some (c.enter (.emitting artifact) "正在写入 EG 编译产物。" "")
  | .emitting artifact => c.emit identity artifact
  | .emitted => some (c.settleRequest .succeeded "")
  | .gaveUp _ message => some (c.settleRequest .failed message)
  | .compiled => some c.finalizePublishJob
  | .checking | .calling _ => none

/-- `_validate_document` has an error, with its message, or none. -/
def checkManifest (blocking : Option String) (c : Compile) : Option Compile :=
  match c.session, blocking with
  | some .checking, some message => some ({ c with
      progress := markPublishStage .manifestChecked .failed message none message c.progress
    }.settleRequest .failed message)
  | some .checking, none => some (c.enter .checked "manifest snapshot 校验通过。" "")
  | _, _ => none

def answer (answer : AgentAnswer) (c : Compile) : Option Compile :=
  match c.session with
  | some (.calling repair) => some (c.receive repair answer)
  | _ => none

/-- `_mark_current_progress_failed` -/
def markCurrentFailed (terminalStatus : Option JobStatus) (message : String) (c : Compile) :
    PublishProgress :=
  markPublishStage c.progress.currentStage .failed message terminalStatus message c.progress

/-- The exception handler of `process_compile_request`: what the session had not committed is undone. -/
def raise (message : String) (c : Compile) : Option Compile :=
  match c.session with
  | none | some .compiled => none
  | some .begin =>
    if c.status = .succeeded then none
    else some ({ c with progress := c.markCurrentFailed none message }.settleRequest .failed message)
  | some _ => some ({ c with progress := c.markCurrentFailed none message }.settleRequest .failed message)

def claim (c : Compile) : Option Compile :=
  c.job.claim.map fun job => { c with job := job, session := some .begin }

/-- `finalize_exhausted_compile_job` -/
def finalizeExhausted (message : String) (c : Compile) : Compile :=
  if c.status = .succeeded ∨ c.status = .failed ∨ c.status = .cancelled then c
  else { c with
    status := .failed
    errorMessage := if Text.strip message = "" then "Compile job attempts exhausted."
      else Text.strip message
    record := c.record.map fun status => if status = .published then status else .failed }

/-- An attempt that ends without a result. -/
def drop (message : String) (c : Compile) : Option Compile :=
  if c.job.status ≠ .running then none
  else if c.job.exhausted then some { c.finalizeExhausted message with
    job := c.job.drop, lastError := message, session := none
    progress := c.markCurrentFailed (some .failed) message }
  else some { c with job := c.job.drop, lastError := message, session := none }

/-- `update_artifact` -/
def edit (identity : CompileIdentity) (candidate : Json) (c : Compile) : Option Compile :=
  match c.artifact, (Compiler.accepted candidate).bind (stampArtifact identity) with
  | some _, some stored => some { c with artifact := some stored }
  | _, _ => none

end Compile

inductive CompileEvent where
  | claim
  | go
  | manifest (blocking : Option String)
  | agent (answer : AgentAnswer)
  | raise (message : String)
  | drop (message : String)
  /-- A maintainer edits the artifact. -/
  | edit (candidate : Json)

def Compile.step (identity : CompileIdentity) (c : Compile) : CompileEvent → Option Compile
  | .claim => c.claim
  | .go => c.go identity
  | .manifest blocking => c.checkManifest blocking
  | .agent answer => c.answer answer
  | .raise message => c.raise message
  | .drop message => c.drop message
  | .edit candidate => c.edit identity candidate

variable {identity : CompileIdentity} {c d : Compile}

/-! ### Artifacts stay sound -/

theorem validateArtifact_congr {fs gs : Fields}
    (same : ∀ key ∈ requiredArtifactFields, lookup key fs = lookup key gs) :
    validateArtifact fs = validateArtifact gs := by
  have first : ∀ key ∈ requiredArtifactFields, firstOf [key] fs = firstOf [key] gs := by
    intro key isRequired
    rw [firstOf_single, firstOf_single, same key isRequired]
  have header : validateHeader fs = validateHeader gs := by
    unfold validateHeader
    rw [first "formal_revision" (by decide), first "schema" (by decide), first "nodes" (by decide)]
    congr 3
    refine List.flatMap_congr fun name isRequired => ?_
    rw [same name isRequired]
  unfold validateArtifact
  rw [header, first "nodes" (by decide), first "schema" (by decide), first "init" (by decide),
    first "halt" (by decide), first "runtime_contract" (by decide)]

theorem Interpretable.congr {fs gs : Fields} (sound : Interpretable fs)
    (same : ∀ key ∈ requiredArtifactFields ++ ["graph_summary", "capability_summary"],
      lookup key fs = lookup key gs) : Interpretable gs := by
  have nodes : firstOf ["nodes"] fs = firstOf ["nodes"] gs := by
    rw [firstOf_single, firstOf_single, same "nodes" (by decide)]
  have contract : firstOf ["runtime_contract"] fs = firstOf ["runtime_contract"] gs := by
    rw [firstOf_single, firstOf_single, same "runtime_contract" (by decide)]
  constructor
  · rw [← validateArtifact_congr fun key isRequired => same key (List.mem_append_left _ isRequired)]
    exact sound.passes
  · rw [← same "graph_summary" (by decide), ← nodes]
    exact sound.graph
  · rw [← same "capability_summary" (by decide), ← nodes, ← contract]
    exact sound.capability

/-- What is stamped is not looked at by the checks. -/
theorem Interpretable.setKey {fs : Fields} (sound : Interpretable fs) {key : String}
    (isStamped : key ∈ stampedKeys)
    (value : Json) : Interpretable (setKey key value fs) := by
  have apart : ∀ stamped ∈ stampedKeys,
      ∀ other ∈ requiredArtifactFields ++ ["graph_summary", "capability_summary"], stamped ≠ other := by
    decide
  exact sound.congr fun other isOther => (lookup_setKey_other (apart key isStamped other isOther) _ _).symm

theorem sound_of_accepted {candidate artifact : Json}
    (stored : Compiler.accepted candidate = some artifact) : SoundArtifact artifact := by
  obtain ⟨fs, rfl⟩ := accepted_obj stored
  obtain ⟨N, -, -, errors, rfl⟩ := accepted_iff.mp stored
  have nodes : firstOf ["nodes"] (summarized N) = firstOf ["nodes"] N := firstOf_summarized (by decide) N
  have contract : firstOf ["runtime_contract"] (summarized N) = firstOf ["runtime_contract"] N :=
    firstOf_summarized (by decide) N
  refine ⟨_, rfl, ?_, ?_, ?_⟩
  · rw [validateArtifact_summarized]
    exact errors
  · rw [nodes, summarized, lookup_setKey_other (by decide), lookup_setKey_same]
  · rw [nodes, contract, summarized, lookup_setKey_same]

theorem stamped_sound {artifact stored : Json} (sound : SoundArtifact artifact)
    (stamped : stampArtifact identity artifact = some stored) : StoredSound identity stored := by
  obtain ⟨fs, rfl, sound⟩ := sound
  have isStamped : "compile_request_id" ∈ stampedKeys := by decide
  have named := sound.setKey isStamped (str identity.compileRequestId)
  simp only [stampArtifact] at stamped
  generalize isNamed : Json.setKey "compile_request_id" (str identity.compileRequestId) fs = gs
    at stamped named
  have request : lookup "compile_request_id" gs = some (str identity.compileRequestId) := by
    rw [← isNamed, lookup_setKey_same]
  have result : ∀ skill, StoredSound identity (obj (Json.setKey "skill" skill gs)) := by
    intro skill
    refine ⟨⟨_, rfl, named.setKey (by decide) skill⟩, ?_⟩
    show (lookup "compile_request_id" (Json.setKey "skill" skill gs)).getD null = _
    rw [lookup_setKey_other (by decide), request]
    rfl
  split at stamped
  · rw [← Option.some.inj stamped]
    exact result _
  · rw [← Option.some.inj stamped]
    exact result _
  · cases stamped

/-! ### What a commit does -/

/-- The rows that are committed together with a mark. -/
inductive Writes (identity : CompileIdentity) (c : Compile) : Point → Point → Compile → Prop
  | first (unfinished : c.status ≠ .succeeded) :
      Writes identity c .begin .loading { c with status := .running }
  | nothing {p q : Point} (inside : p.mark.isSome) (other : q ≠ .emitted)
      (sound : ∀ artifact ∈ q.artifact?, artifact ∈ p.artifact? ∨ SoundArtifact artifact) :
      Writes identity c p q c
  | stored {artifact stored : Json} (free : c.artifact = none)
      (stamped : stampArtifact identity artifact = some stored) :
      Writes identity c (.emitting artifact) .emitted { c with artifact := some stored }

/-- The next stage comes after one that has succeeded; a repair goes back. -/
def Follows (p : Point) (key : StageKey) : Prop :=
  match p.mark with
  | none => key = .sourceLoaded
  | some (old, status) => key.rank ≤ old.rank ∨ key.rank = old.rank + 1 ∧ status = .succeeded

/-- What is shown once an attempt fails at a point. -/
inductive Fails (c : Compile) (p : Point) : PublishProgress → Prop
  | already : Fails c p c.progress
  | current (message : String) : Fails c p (c.markCurrentFailed none message)
  | marked {key : StageKey} {status : StageStatus} (message : String) (mark : p.mark = some (key, status)) :
      Fails c p (markPublishStage key .failed message none message c.progress)

/-- The commits of a compile request. -/
inductive Commit (identity : CompileIdentity) (c : Compile) : Compile → Prop
  | claim {job : Held} (claimed : c.job.claim = some job) :
      Commit identity c { c with job := job, session := some .begin }
  | enter {p q : Point} {base : Compile} {key : StageKey} {status : StageStatus}
      (message errorMessage : String) (session : c.session = some p) (mark : q.mark = some (key, status))
      (follows : Follows p key) (early : key.rank < 7) (writes : Writes identity c p q base) :
      Commit identity c (base.enter q message errorMessage)
  | skip (session : c.session = some .begin) (done : c.status = .succeeded) :
      Commit identity c { c with session := some .compiled }
  | succeed (session : c.session = some .emitted) : Commit identity c (c.settleRequest .succeeded "")
  | refuse {p : Point} {progress : PublishProgress} (message : String) (session : c.session = some p)
      (inside : p ≠ .compiled) (unfinished : p.mark = none → c.status ≠ .succeeded)
      (fails : Fails c p progress) :
      Commit identity c ({ c with progress := progress }.settleRequest .failed message)
  | finalize (session : c.session = some .compiled) : Commit identity c c.finalizePublishJob
  | exhaust (message : String) (last : c.job.exhausted = true) :
      Commit identity c { c.finalizeExhausted message with
        job := c.job.drop, lastError := message, session := none
        progress := c.markCurrentFailed (some .failed) message }
  | drop (message : String) (running : c.job.status = .running) (more : c.job.exhausted = false) :
      Commit identity c { c with job := c.job.drop, lastError := message, session := none }
  | edit {old artifact stored : Json} (isStored : c.artifact = some old)
      (sound : SoundArtifact artifact) (stamped : stampArtifact identity artifact = some stored) :
      Commit identity c { c with artifact := some stored }

theorem commit_sendBack {p : Point} {repair : Bool} {stage old : StageKey} {status : StageStatus}
    {marked message : String} (session : c.session = some p) (mark : p.mark = some (old, status))
    (low : stage.rank ≤ old.rank) (calling : StageKey.agentCompiling.rank ≤ old.rank)
    (early : stage.rank < 7) : Commit identity c (c.sendBack repair stage marked message) := by
  have inside : p.mark.isSome := by rw [mark]; rfl
  unfold Compile.sendBack
  split
  · refine .enter _ _ session (q := .gaveUp stage message) rfl ?_ early
      (.nothing inside (by simp) (by simp [Point.artifact?]))
    rw [Follows, mark]
    exact .inl low
  · refine .enter _ _ session (q := .calling true) rfl ?_ (by decide)
      (.nothing inside (by simp) (by simp [Point.artifact?]))
    rw [Follows, mark]
    exact .inl calling

theorem commit_receive {repair : Bool} {answer : AgentAnswer} (session : c.session = some (.calling repair)) :
    Commit identity c (c.receive repair answer) := by
  cases answer with
  | failed message => exact commit_sendBack session rfl (le_refl _) (le_refl _) (by decide)
  | unreadable message => exact commit_sendBack session rfl (le_refl _) (le_refl _) (by decide)
  | candidate candidate metadata =>
    exact .enter _ _ session (q := .answered repair candidate metadata) rfl (.inl (le_refl _))
      (by decide) (.nothing rfl (by simp) (by simp [Point.artifact?]))

theorem commit_validate {repair : Bool} {candidate metadata : Json}
    (session : c.session = some (.validating repair candidate metadata))
    (validated : c.validate repair candidate metadata = some d) : Commit identity c d := by
  unfold Compile.validate at validated
  obtain ⟨result, ran, rfl⟩ := Option.map_eq_some_iff.mp validated
  split
  · rename_i artifact isArtifact
    have stored : Compiler.accepted candidate = some (obj artifact) := by
      rw [Compiler.accepted, ran]
      exact isArtifact
    obtain ⟨fs, same, sound⟩ := sound_of_accepted stored
    obtain rfl := Json.obj.inj same
    refine .enter _ _ session rfl (.inl (le_refl _)) (by decide) (.nothing rfl (by simp) ?_)
    intro held isHeld
    obtain rfl := Option.some.inj isHeld
    exact .inr ⟨_, rfl, sound.setKey (by decide) metadata⟩
  · exact commit_sendBack session rfl (le_refl _) (by decide) (by decide)

theorem commit_emit {artifact : Json} (session : c.session = some (.emitting artifact))
    (emitted : c.emit identity artifact = some d) : Commit identity c d := by
  unfold Compile.emit at emitted
  split at emitted
  · rename_i stored free stamped
    obtain rfl := Option.some.inj emitted
    exact .enter _ _ session rfl (.inl (le_refl _)) (by decide) (.stored free stamped)
  · cases emitted

theorem commit_go (stepped : c.go identity = some d) : Commit identity c d := by
  obtain ⟨p, session, gone⟩ := Option.bind_eq_some_iff.mp stepped
  have plain : ∀ {q : Point} {key : StageKey} {status : StageStatus} {message : String},
      q.mark = some (key, status) → Follows p key → key.rank < 7 → p.mark.isSome → q ≠ .emitted →
      q.artifact? = none ∨ q.artifact? = p.artifact? → Commit identity c (c.enter q message "") := by
    intro q key status message mark follows early inside other carried
    refine .enter _ _ session mark follows early (.nothing inside other fun artifact isHeld => .inl ?_)
    rcases carried with none | same
    · rw [none] at isHeld
      cases isHeld
    · rwa [same] at isHeld
  cases p with
  | begin =>
    dsimp only at gone
    split at gone
    · rename_i done
      exact Option.some.inj gone ▸ .skip session done
    · rename_i unfinished
      exact Option.some.inj gone ▸ .enter _ _ session rfl rfl (by decide) (.first unfinished)
  | loading => exact Option.some.inj gone ▸ plain rfl (.inl (le_refl _)) (by decide) rfl (by simp) (.inl rfl)
  | loaded => exact Option.some.inj gone ▸ plain rfl (.inr ⟨rfl, rfl⟩) (by decide) rfl (by simp) (.inl rfl)
  | checked => exact Option.some.inj gone ▸ plain rfl (.inr ⟨rfl, rfl⟩) (by decide) rfl (by simp) (.inl rfl)
  | answered repair candidate metadata =>
    exact Option.some.inj gone ▸ plain rfl (.inr ⟨rfl, rfl⟩) (by decide) rfl (by simp) (.inl rfl)
  | validating repair candidate metadata => exact commit_validate session gone
  | accepted artifact =>
    exact Option.some.inj gone ▸ plain rfl (.inr ⟨rfl, rfl⟩) (by decide) rfl (by simp) (.inr rfl)
  | emitting artifact => exact commit_emit session gone
  | emitted => exact Option.some.inj gone ▸ .succeed session
  | gaveUp stage message =>
    exact Option.some.inj gone ▸ .refuse _ session (by simp) (by simp [Point.mark]) .already
  | compiled => exact Option.some.inj gone ▸ .finalize session
  | checking | calling => cases gone

theorem commit_manifest {blocking : Option String} (stepped : c.checkManifest blocking = some d) :
    Commit identity c d := by
  unfold Compile.checkManifest at stepped
  split at stepped
  · rename_i message session
    exact Option.some.inj stepped ▸ .refuse _ session (by simp) (by simp [Point.mark]) (.marked _ rfl)
  · rename_i session
    exact Option.some.inj stepped ▸ .enter _ _ session rfl (.inl (le_refl _)) (by decide)
      (.nothing rfl (by simp) (by simp [Point.artifact?]))
  · cases stepped

theorem commit_raise {message : String} (stepped : c.raise message = some d) : Commit identity c d := by
  unfold Compile.raise at stepped
  cases session : c.session with
  | none =>
    rw [session] at stepped
    cases stepped
  | some p =>
    rw [session] at stepped
    cases p with
    | compiled => cases stepped
    | begin =>
      dsimp only at stepped
      split at stepped
      · cases stepped
      · rename_i unfinished
        exact Option.some.inj stepped ▸ .refuse _ session (by simp) (fun _ => unfinished) (.current _)
    | _ =>
      exact Option.some.inj stepped ▸ .refuse _ session (by simp) (by simp [Point.mark]) (.current _)

theorem commit_of_step {e : CompileEvent} (stepped : c.step identity e = some d) :
    Commit identity c d := by
  cases e with
  | claim =>
    obtain ⟨job, claimed, rfl⟩ := Option.map_eq_some_iff.mp stepped
    exact .claim claimed
  | go => exact commit_go stepped
  | manifest blocking => exact commit_manifest stepped
  | agent answer =>
    simp only [Compile.step, Compile.answer] at stepped
    split at stepped
    · rename_i repair session
      exact Option.some.inj stepped ▸ commit_receive session
    · cases stepped
  | raise message => exact commit_raise stepped
  | drop message =>
    simp only [Compile.step, Compile.drop] at stepped
    split at stepped
    · cases stepped
    · rename_i running
      split at stepped
      · rename_i last
        exact Option.some.inj stepped ▸ .exhaust message last
      · rename_i more
        exact Option.some.inj stepped ▸ .drop message (not_not.mp running) (Bool.not_eq_true _ ▸ more)
  | edit candidate =>
    simp only [Compile.step, Compile.edit] at stepped
    split at stepped
    · rename_i old stored isStored stamped
      obtain ⟨artifact, isAccepted, stamped⟩ := Option.bind_eq_some_iff.mp stamped
      exact Option.some.inj stepped ▸ .edit isStored (sound_of_accepted isAccepted) stamped
    · cases stepped

/-! ### What is shown -/

theorem StageKey.rank_inj {key other : StageKey} (same : key.rank = other.rank) : key = other := by
  cases key <;> cases other <;> first | rfl | cases same

/-- The job has no outcome yet. -/
def Unsettled (status : JobStatus) : Prop := status ≠ .succeeded ∧ status ≠ .failed

/-- The terminal status that goes with the status of a job. -/
def outcome (status : JobStatus) : Option JobStatus :=
  match status with
  | .succeeded => some .succeeded
  | .failed => some .failed
  | _ => none

theorem outcome_unsettled {status : JobStatus} (unsettled : Unsettled status) : outcome status = none := by
  unfold outcome
  split
  · exact absurd rfl unsettled.1
  · exact absurd rfl unsettled.2
  · rfl

/-- The stages from the reading of the source to one that comes later have succeeded. -/
def PassedBefore (rank : Nat) (payload : PublishProgress) : Prop :=
  ∀ key : StageKey, 2 ≤ key.rank → key.rank < rank → payload.stageStatus key = .succeeded

/-- What the progress of a job with some status shows. -/
structure Shown (status : JobStatus) (payload : PublishProgress) : Prop where
  laid : payload.Laid
  /-- An attempt is in a stage only after the stages before it. -/
  order : payload.currentStage.rank < 7 → PassedBefore payload.currentStage.rank payload
  early : Unsettled status → payload.currentStage.rank < 7
  terminal : payload.terminalStatus = outcome status
  last : payload.stageStatus .publishFinalizing = .succeeded ↔ status = .succeeded

namespace Shown

variable {status next : JobStatus} {payload : PublishProgress} {key : StageKey}
  {marked : StageStatus} {message errorMessage : String}

theorem reopen (shown : Shown status payload) (unsettled : Unsettled status)
    (still : Unsettled next) : Shown next payload where
  laid := shown.laid
  order := shown.order
  early _ := shown.early unsettled
  terminal := by rw [shown.terminal, outcome_unsettled unsettled, outcome_unsettled still]
  last := by rw [shown.last, iff_false_left unsettled.1]; exact still.1

theorem passed (shown : Shown status payload) (unsettled : Unsettled status) :
    PassedBefore payload.currentStage.rank payload := shown.order (shown.early unsettled)

theorem passed_mark {rank : Nat} {terminalStatus : Option JobStatus}
    (passed : PassedBefore rank payload) (late : rank ≤ key.rank) :
    PassedBefore rank (markPublishStage key marked message terminalStatus errorMessage payload) := by
  intro other worked before
  rw [stageStatus_mark, if_neg]
  · exact passed other worked before
  · rintro rfl
    omega

/-- A mark of a job that is not settled. -/
theorem mark (shown : Shown status payload) (early : key.rank < 7)
    (passed : PassedBefore key.rank payload) :
    Shown status (markPublishStage key marked message none errorMessage payload) where
  laid := laid_mark
  order _ := passed_mark passed (le_refl _)
  early _ := early
  terminal := shown.terminal
  last := by
    rw [stageStatus_mark, if_neg, shown.last]
    rintro rfl
    exact absurd early (by decide)

/-- The failure of the current stage. -/
theorem fail (shown : Shown status payload) (unsettled : Unsettled status) :
    Shown status (markPublishStage payload.currentStage .failed message none errorMessage payload) :=
  shown.mark (shown.early unsettled) (shown.passed unsettled)

theorem exhaust (shown : Shown status payload) (unsettled : Unsettled status) :
    Shown .failed (markPublishStage payload.currentStage .failed message (some .failed) errorMessage
      payload) where
  laid := laid_mark
  order _ := passed_mark (shown.passed unsettled) (le_refl _)
  early unsettled := absurd rfl unsettled.2
  terminal := rfl
  last := by
    rw [stageStatus_mark, if_neg, shown.last]
    · exact ⟨fun same => absurd same unsettled.1, by rintro ⟨⟩⟩
    · intro same
      have early := shown.early unsettled
      rw [← same] at early
      exact absurd early (by decide)

/-- The two marks of the last stage. -/
theorem finalize {first : String} (settled : next = .succeeded ∧ marked = .succeeded ∨
    next = .failed ∧ marked = .failed) :
    Shown next (markPublishStage .publishFinalizing marked message (some next) errorMessage
      (markPublishStage .publishFinalizing .running first none "" payload)) where
  laid := laid_mark
  order early := absurd early (Nat.lt_irrefl 7)
  early unsettled := by
    rcases settled with ⟨rfl, -⟩ | ⟨rfl, -⟩
    · exact absurd rfl unsettled.1
    · exact absurd rfl unsettled.2
  terminal := by
    rcases settled with ⟨rfl, -⟩ | ⟨rfl, -⟩
    · rfl
    · rfl
  last := by
    rw [stageStatus_mark, if_pos rfl]
    rcases settled with ⟨rfl, rfl⟩ | ⟨rfl, rfl⟩
    · simp
    · simp

end Shown

/-! ### What holds after every commit -/

/-- The rows of a request between two commits. -/
structure CommitInvariant (identity : CompileIdentity) (c : Compile) : Prop where
  shown : Shown c.job.status c.progress
  running : ∀ p ∈ c.session, c.job.status = .running
  inside : ∀ p ∈ c.session, p.mark.isSome → c.status = .running
  place : ∀ p ∈ c.session, ∀ m ∈ p.mark,
    c.progress.currentStage = m.1 ∧ c.progress.stageStatus m.1 = m.2
  passed : c.status = .succeeded → c.job.status ≠ .failed → PassedBefore 7 c.progress
  stored : c.status = .succeeded ∨ c.session = some .emitted → c.artifact.isSome
  settled : c.job.status = .succeeded → c.status = .succeeded ∧ ∀ status ∈ c.record, status = .published
  sound : ∀ artifact ∈ c.artifact, StoredSound identity artifact
  carried : ∀ p ∈ c.session, ∀ artifact ∈ p.artifact?, SoundArtifact artifact

theorem running_unsettled : Unsettled .running := ⟨by simp, by simp⟩

theorem kept_queued (maxAttempts : Nat) (record : Option PublishStatus) :
    CommitInvariant identity (.queued identity maxAttempts record) where
  shown :=
    { laid := laid_mark
      order := fun _ key worked before =>
        absurd (show 2 < 1 from Nat.lt_of_le_of_lt worked before) (by decide)
      early := fun _ => show 1 < 7 by decide
      terminal := rfl
      last := by
        rw [show (Compile.queued identity maxAttempts record).progress = buildPublishProgressPayload
          identity.sourceCommitSha from rfl, buildPublishProgressPayload, stageStatus_mark,
          if_neg (by decide), stageStatus_mark, if_neg (by decide)]
        exact show _ ↔ JobStatus.pending = .succeeded by decide }
  running := by simp [Compile.queued]
  inside := by simp [Compile.queued]
  place := by simp [Compile.queued]
  passed := by simp [Compile.queued]
  stored := by simp [Compile.queued]
  settled := by simp [Compile.queued]
  sound := by simp [Compile.queued]
  carried := by simp [Compile.queued]

namespace CommitInvariant

theorem unsettled (kept : CommitInvariant identity c) {p : Point} (session : c.session = some p) :
    Unsettled c.job.status := by
  rw [kept.running p session]
  exact running_unsettled

/-- The stages before the next mark. -/
theorem passedBefore (kept : CommitInvariant identity c) {p : Point} {key : StageKey}
    (session : c.session = some p) (follows : Follows p key) : PassedBefore key.rank c.progress := by
  have passed := kept.shown.passed (kept.unsettled session)
  unfold Follows at follows
  split at follows
  · rename_i none
    subst follows
    intro other worked before
    exact absurd (Nat.lt_of_le_of_lt worked before) (by decide)
  · rename_i old status isMark
    obtain ⟨current, marked⟩ := kept.place p session _ isMark
    rw [current] at passed
    rcases follows with back | ⟨next, succeeded⟩
    · exact fun other worked before => passed other worked (Nat.lt_of_lt_of_le before back)
    · intro other worked before
      rcases Nat.lt_or_ge other.rank old.rank with less | more
      · exact passed other worked less
      · obtain rfl := StageKey.rank_inj (show other.rank = old.rank by omega)
        rw [marked, succeeded]

end CommitInvariant

/-- The rows that go with a mark, as the mark finds them. -/
structure Based (identity : CompileIdentity) (c : Compile) (q : Point) (base : Compile) : Prop where
  job : base.job = c.job
  progress : base.progress = c.progress
  record : base.record = c.record
  latest : base.latest = c.latest
  status : base.status = .running
  stored : q = .emitted → base.artifact.isSome
  sound : ∀ artifact ∈ base.artifact, StoredSound identity artifact
  carried : ∀ artifact ∈ q.artifact?, SoundArtifact artifact

theorem Writes.inside {p q : Point} {base : Compile} (writes : Writes identity c p q base) :
    p ≠ .compiled := by
  rintro rfl
  cases writes with
  | nothing inside => cases inside

theorem Writes.based {p q : Point} {base : Compile} (kept : CommitInvariant identity c)
    (session : c.session = some p) (writes : Writes identity c p q base) : Based identity c q base := by
  cases writes with
  | first unfinished =>
    exact ⟨rfl, rfl, rfl, rfl, rfl, by simp, kept.sound, by simp [Point.artifact?]⟩
  | nothing inside other sound =>
    refine ⟨rfl, rfl, rfl, rfl, kept.inside p session inside, fun same => absurd same other, kept.sound, ?_⟩
    intro artifact isHeld
    rcases sound artifact isHeld with old | new
    · exact kept.carried p session artifact old
    · exact new
  | stored free stamped =>
    refine ⟨rfl, rfl, rfl, rfl, kept.inside _ session rfl, fun _ => rfl, ?_, by simp [Point.artifact?]⟩
    intro artifact isStored
    obtain rfl := Option.some.inj isStored
    exact stamped_sound (kept.carried _ session _ rfl) stamped

namespace CommitInvariant

theorem claim (kept : CommitInvariant identity c) {job : Held} (claimed : c.job.claim = some job) :
    CommitInvariant identity { c with job := job, session := some .begin } := by
  obtain ⟨running, unfinished, -⟩ := Held.claim_spec claimed
  have unsettled : Unsettled c.job.status := by
    constructor
    · intro same
      simp [Held.finished, same] at unfinished
    · intro same
      simp [Held.finished, same] at unfinished
  exact
    { shown := kept.shown.reopen unsettled (running ▸ running_unsettled)
      running := fun _ _ => running
      inside := by simp [Point.mark]
      place := by simp [Point.mark]
      passed := fun done _ => kept.passed done unsettled.2
      stored := fun done => kept.stored (done.imp_right fun same => by cases same)
      settled := fun done => by rw [running] at done; cases done
      sound := kept.sound
      carried := by simp [Point.artifact?] }

theorem enter (kept : CommitInvariant identity c) {p q : Point} {base : Compile} {key : StageKey}
    {status : StageStatus} {message errorMessage : String} (session : c.session = some p)
    (mark : q.mark = some (key, status)) (follows : Follows p key) (early : key.rank < 7)
    (based : Based identity c q base) : CommitInvariant identity (base.enter q message errorMessage) := by
  have running := kept.running p session
  simp only [Compile.enter, mark]
  exact
    { shown := by
        rw [based.job, based.progress]
        exact kept.shown.mark early (kept.passedBefore session follows)
      running := fun _ _ => by rw [based.job]; exact running
      inside := fun _ _ _ => based.status
      place := by
        rintro _ ⟨⟩ m isMark
        obtain rfl := Option.some.inj (mark.symm.trans isMark)
        exact ⟨rfl, by rw [stageStatus_mark, if_pos rfl]⟩
      passed := fun done => by rw [based.status] at done; cases done
      stored := fun done => by
        rcases done with done | emitted
        · rw [based.status] at done
          cases done
        · exact based.stored (Option.some.inj emitted)
      settled := fun done => by rw [based.job, running] at done; cases done
      sound := based.sound
      carried := by
        rintro _ ⟨⟩
        exact based.carried }

/-- The request has its outcome. -/
theorem outcomes (kept : CommitInvariant identity c) {p : Point} (session : c.session = some p)
    {status : RequestStatus} {message : String} {progress : PublishProgress}
    (shown : Shown c.job.status progress) (passed : status = .succeeded → PassedBefore 7 progress)
    (stored : status = .succeeded → c.artifact.isSome) :
    CommitInvariant identity ({ c with progress := progress }.settleRequest status message) where
  shown := shown
  running _ _ := kept.running p session
  inside := by rintro _ ⟨⟩ inside; cases inside
  place := by rintro _ ⟨⟩ m inside; cases inside
  passed done _ := passed done
  stored done := done.elim stored fun same => by cases same
  settled done := absurd done (kept.unsettled session).1
  sound := kept.sound
  carried := by rintro _ ⟨⟩ artifact isHeld; cases isHeld

theorem fails (kept : CommitInvariant identity c) {p : Point} {progress : PublishProgress}
    (session : c.session = some p) (fails : Fails c p progress) : Shown c.job.status progress := by
  cases fails with
  | already => exact kept.shown
  | current message => exact kept.shown.fail (kept.unsettled session)
  | @marked key _ message mark =>
    have current : c.progress.currentStage = key := (kept.place p session _ mark).1
    exact current ▸ kept.shown.fail (kept.unsettled session)

theorem succeed (kept : CommitInvariant identity c) (session : c.session = some .emitted) :
    PassedBefore 7 c.progress := by
  obtain ⟨current, marked⟩ := kept.place _ session _ rfl
  have passed := kept.shown.passed (kept.unsettled session)
  rw [current] at passed
  intro key worked before
  rcases Nat.lt_or_ge key.rank 6 with less | more
  · exact passed key worked less
  · obtain rfl : key = .artifactEmitting := StageKey.rank_inj (show key.rank = 6 by omega)
    exact marked

theorem finalize (kept : CommitInvariant identity c) (session : c.session = some .compiled) :
    CommitInvariant identity c.finalizePublishJob := by
  have unsettled := kept.unsettled session
  unfold Compile.finalizePublishJob
  dsimp only
  split
  · rename_i done
    have passed := kept.passed done unsettled.2
    exact
      { shown := .finalize (.inl ⟨rfl, rfl⟩)
        running := by rintro _ ⟨⟩
        inside := by rintro _ ⟨⟩
        place := by rintro _ ⟨⟩
        passed := fun _ _ => Shown.passed_mark (Shown.passed_mark passed (le_refl 7)) (le_refl 7)
        stored := fun _ => kept.stored (.inl done)
        settled := fun _ => ⟨done, fun status isRecord => by
          obtain ⟨_, -, rfl⟩ := Option.map_eq_some_iff.mp isRecord
          rfl⟩
        sound := kept.sound
        carried := by rintro _ ⟨⟩ }
  · rename_i unfinished
    exact
      { shown := .finalize (.inr ⟨rfl, rfl⟩)
        running := by rintro _ ⟨⟩
        inside := by rintro _ ⟨⟩
        place := by rintro _ ⟨⟩
        passed := fun _ other => absurd rfl other
        stored := fun done => done.elim (fun done => absurd done unfinished) (by rintro ⟨⟩)
        settled := by rintro ⟨⟩
        sound := kept.sound
        carried := by rintro _ ⟨⟩ }

theorem exhaust (kept : CommitInvariant identity c) (message : String) (last : c.job.exhausted = true) :
    CommitInvariant identity { c.finalizeExhausted message with
      job := c.job.drop, lastError := message, session := none
      progress := c.markCurrentFailed (some .failed) message } := by
  have running : c.job.status = .running := by
    simp only [Held.exhausted, Bool.and_eq_true, beq_iff_eq] at last
    exact last.1
  have failed : c.job.drop.status = .failed := by
    have dropped := Held.drop_running running
    rwa [if_pos last] at dropped
  have rows : (c.finalizeExhausted message).artifact = c.artifact ∧
      ((c.finalizeExhausted message).status = .succeeded → c.status = .succeeded) := by
    unfold Compile.finalizeExhausted
    split
    · exact ⟨rfl, id⟩
    · exact ⟨rfl, by rintro ⟨⟩⟩
  exact
    { shown := by
        rw [failed]
        exact kept.shown.exhaust (running ▸ running_unsettled)
      running := by rintro _ ⟨⟩
      inside := by rintro _ ⟨⟩
      place := by rintro _ ⟨⟩
      passed := fun _ other => absurd failed other
      stored := fun done => by
        rw [show Option.isSome _ = c.artifact.isSome from congrArg Option.isSome rows.1]
        exact done.elim (fun done => kept.stored (.inl (rows.2 done))) (by rintro ⟨⟩)
      settled := fun done => by rw [failed] at done; cases done
      sound := by
        rw [show Compile.artifact _ = c.artifact from rows.1]
        exact kept.sound
      carried := by rintro _ ⟨⟩ }

theorem drop (kept : CommitInvariant identity c) (message : String) (running : c.job.status = .running)
    (more : c.job.exhausted = false) :
    CommitInvariant identity { c with job := c.job.drop, lastError := message, session := none } := by
  have waits : c.job.drop.status = .retryableFailed := by
    have dropped := Held.drop_running running
    rwa [more, if_neg Bool.false_ne_true] at dropped
  have unsettled : Unsettled c.job.drop.status := by
    rw [waits]
    exact ⟨by simp, by simp⟩
  exact
    { shown := kept.shown.reopen (running ▸ running_unsettled) unsettled
      running := by rintro _ ⟨⟩
      inside := by rintro _ ⟨⟩
      place := by rintro _ ⟨⟩
      passed := fun done _ => kept.passed done (by simp [running])
      stored := fun done => done.elim (fun done => kept.stored (.inl done)) (by rintro ⟨⟩)
      settled := fun done => absurd done unsettled.1
      sound := kept.sound
      carried := by rintro _ ⟨⟩ }

theorem edit (kept : CommitInvariant identity c) {artifact stored : Json} (sound : SoundArtifact artifact)
    (stamped : stampArtifact identity artifact = some stored) :
    CommitInvariant identity { c with artifact := some stored } :=
  { kept with
    stored := fun _ => rfl
    sound := fun artifact isStored => by
      obtain rfl := Option.some.inj isStored
      exact stamped_sound sound stamped }

/-- **Every commit keeps the rows of a request in order.** -/
theorem commit (kept : CommitInvariant identity c) (commit : Commit identity c d) :
    CommitInvariant identity d := by
  cases commit with
  | claim claimed => exact kept.claim claimed
  | enter message errorMessage session mark follows early writes =>
    exact kept.enter session mark follows early (writes.based kept session)
  | skip session done =>
    exact kept.outcomes session kept.shown
      (fun _ => kept.passed done (kept.unsettled session).2) (fun _ => kept.stored (.inl done))
  | succeed session =>
    exact kept.outcomes session kept.shown (fun _ => kept.succeed session)
      (fun _ => kept.stored (.inr session))
  | refuse message session inside unfinished fails =>
    exact kept.outcomes session (kept.fails session fails) (by rintro ⟨⟩) (by rintro ⟨⟩)
  | finalize session => exact kept.finalize session
  | exhaust message last => exact kept.exhaust message last
  | drop message running more => exact kept.drop message running more
  | edit isStored sound stamped => exact kept.edit sound stamped

end CommitInvariant

/-- The rows of a request that was queued, after any run. -/
theorem kept_run {maxAttempts : Nat} {record : Option PublishStatus}
    (run : Run (Compile.step identity) anyStep (.queued identity maxAttempts record) c) :
    CommitInvariant identity c :=
  run.invariant (fun _ _ _ kept _ stepped => kept.commit (commit_of_step stepped))
    (kept_queued maxAttempts record)

/-! ### Results -/

/-- **A compile that succeeded is whole**: in whatever way its attempts were cut off, the request has
succeeded, its publish record is published, every stage from the reading of the source on has
succeeded, and the stored artifact passes the validator as it stands. -/
theorem published_whole {maxAttempts : Nat} {record : Option PublishStatus}
    (run : Run (Compile.step identity) anyStep (.queued identity maxAttempts record) c)
    (succeeded : c.job.status = .succeeded) :
    c.status = .succeeded ∧ (∀ status ∈ c.record, status = .published) ∧
      (∀ key : StageKey, 2 ≤ key.rank → c.progress.stageStatus key = .succeeded) ∧
      ∃ artifact, c.artifact = some artifact ∧ StoredSound identity artifact := by
  have kept := kept_run run
  obtain ⟨done, published⟩ := kept.settled succeeded
  obtain ⟨artifact, isStored⟩ := Option.isSome_iff_exists.mp (kept.stored (.inl done))
  refine ⟨done, published, fun key worked => ?_, artifact, isStored, kept.sound artifact isStored⟩
  rcases Nat.lt_or_ge key.rank 7 with before | last
  · exact kept.passed done (by simp [succeeded]) key worked before
  · have highest : key.rank ≤ 7 := by cases key <;> decide
    obtain rfl : key = .publishFinalizing :=
      StageKey.rank_inj (show key.rank = 7 from Nat.le_antisymm highest last)
    exact kept.shown.last.mpr succeeded

/-- **A hundred percent is shown of a compile that succeeded and of no other**, and the terminal status
beside it is always that of the job. -/
theorem percent_full_iff {maxAttempts : Nat} {record : Option PublishStatus}
    (run : Run (Compile.step identity) anyStep (.queued identity maxAttempts record) c) :
    ((compileProgress c.job.status c.lastError c.progress).percent = 100 ↔
      c.job.status = .succeeded) ∧ c.progress.terminalStatus = outcome c.job.status := by
  have shown := (kept_run run).shown
  refine ⟨⟨fun full => ?_, fun succeeded => ?_⟩, shown.terminal⟩
  · by_contra unfinished
    have short : c.progress.stageStatus .publishFinalizing ≠ .succeeded :=
      fun same => unfinished (shown.last.mp same)
    have few := percent_bounded shown.laid short unfinished c.lastError
    omega
  · unfold compileProgress
    split
    · rw [succeeded]
      rfl
    · exact if_pos succeeded

/-- The artifact of an earlier attempt is stored, and its request has not succeeded. -/
structure Doomed (c : Compile) : Prop where
  stored : c.artifact.isSome
  unfinished : c.status ≠ .succeeded
  past : c.session ≠ some .emitted

theorem Doomed.commit (doomed : Doomed c) (commit : Commit identity c d) : Doomed d := by
  obtain ⟨stored, unfinished, past⟩ := doomed
  cases commit with
  | claim claimed => exact ⟨stored, unfinished, by simp⟩
  | @enter p q base key status message errorMessage session mark follows early writes =>
    simp only [Compile.enter, mark]
    cases writes with
    | first => exact ⟨stored, by simp, by simp⟩
    | nothing inside other sound => exact ⟨stored, unfinished, by simpa using other⟩
    | stored free stamped =>
      rw [free] at stored
      cases stored
  | skip session done => exact absurd done unfinished
  | succeed session => exact absurd session past
  | refuse message session inside unfinished fails =>
    exact ⟨stored, by simp [Compile.settleRequest], by simp [Compile.settleRequest]⟩
  | finalize session =>
    unfold Compile.finalizePublishJob
    rw [if_neg unfinished]
    exact ⟨stored, unfinished, by simp⟩
  | exhaust message last =>
    unfold Compile.finalizeExhausted
    split
    · exact ⟨stored, unfinished, by simp⟩
    · exact ⟨stored, by simp, by simp⟩
  | drop message running more => exact ⟨stored, unfinished, by simp⟩
  | edit isStored sound stamped => exact ⟨rfl, unfinished, past⟩

/-- **An artifact stored by an attempt that ended before its last commit blocks its request for good**:
no later attempt succeeds, however many are left. -/
theorem stored_never_again {maxAttempts : Nat} {record : Option PublishStatus}
    (run : Run (Compile.step identity) anyStep (.queued identity maxAttempts record) c)
    (doomed : Doomed c) (later : Run (Compile.step identity) anyStep c d) :
    d.status ≠ .succeeded ∧ d.job.status ≠ .succeeded := by
  have after : Doomed d := later.invariant
    (fun _ _ _ doomed _ stepped => doomed.commit (commit_of_step stepped)) doomed
  exact ⟨after.unfinished, fun succeeded =>
    after.unfinished ((kept_run (run.trans later)).settled succeeded).1⟩

/-! ### One compile -/

def brewIdentity : CompileIdentity where
  compileRequestId := "request-1"
  skillId := "skill-1"
  skillKey := "brewing"
  skillName := "Brewing"
  versionId := "version-1"
  versionNo := 1
  sourceCommitSha := "0123456789abcdef"

/-- The commits up to that of the artifact, the candidate being that of one step. -/
def brewUntilEmitted : List CompileEvent :=
  [.claim, .go, .go, .go, .manifest none, .go,
    .agent (.candidate (obj (scaffoldFields brewInput "brew" [brewStep])) (obj [])), .go, .go, .go, .go]

/-- The attempt may go on to its end, or be cut off there; the next one gets as far as the artifact. -/
theorem brew_compiled : ∃ c d e,
    Run (Compile.step brewIdentity) anyStep (.queued brewIdentity 3 (some .compiling)) c ∧
      Run (Compile.step brewIdentity) anyStep c d ∧ d.job.status = .succeeded ∧
      Run (Compile.step brewIdentity) anyStep c e ∧ Doomed e ∧
      ∃ f, Run (Compile.step brewIdentity) anyStep e f := by
  obtain ⟨c, ⟨d, e, f⟩, first, second, passes⟩ := checked_run (show
    ((follow (Compile.step brewIdentity) anyStep (.queued brewIdentity 3 (some .compiling))
      brewUntilEmitted).bind fun c =>
        (follow (Compile.step brewIdentity) anyStep c [.go, .go]).bind fun d =>
          (follow (Compile.step brewIdentity) anyStep c [.drop "worker stopped"]).bind fun e =>
            (follow (Compile.step brewIdentity) anyStep e brewUntilEmitted.dropLast).map fun f =>
              (d, e, f)).any (fun ends => ends.1.job.status == .succeeded &&
                ends.2.1.artifact.isSome && ends.2.1.status != .succeeded &&
                ends.2.1.session.isNone) = true by decide +kernel)
  obtain ⟨d, wholly, second⟩ := Option.bind_eq_some_iff.mp second
  obtain ⟨e, cut, second⟩ := Option.bind_eq_some_iff.mp second
  obtain ⟨f, again, same⟩ := Option.map_eq_some_iff.mp second
  obtain ⟨rfl, rest⟩ := Prod.mk.inj same
  obtain ⟨rfl, rfl⟩ := Prod.mk.inj rest
  simp only [Bool.and_eq_true, beq_iff_eq, bne_iff_ne, Option.isNone_iff_eq_none] at passes
  obtain ⟨⟨⟨succeeded, stored⟩, unfinished⟩, ended⟩ := passes
  exact ⟨c, d, e, run_of_follow first, run_of_follow wholly, succeeded, run_of_follow cut,
    ⟨stored, unfinished, by rw [ended]; simp⟩, f, run_of_follow again⟩

theorem published_whole_brewing : ∃ d,
    Run (Compile.step brewIdentity) anyStep (.queued brewIdentity 3 (some .compiling)) d ∧
      d.job.status = .succeeded ∧ d.status = .succeeded ∧ (∀ status ∈ d.record, status = .published) ∧
      (∀ key : StageKey, 2 ≤ key.rank → d.progress.stageStatus key = .succeeded) ∧
      ∃ artifact, d.artifact = some artifact ∧ StoredSound brewIdentity artifact := by
  obtain ⟨c, d, -, first, second, succeeded, -⟩ := brew_compiled
  exact ⟨d, first.trans second, succeeded, published_whole (first.trans second) succeeded⟩

theorem percent_full_brewing : ∃ d,
    Run (Compile.step brewIdentity) anyStep (.queued brewIdentity 3 (some .compiling)) d ∧
      d.job.status = .succeeded ∧
      ((compileProgress d.job.status d.lastError d.progress).percent = 100 ↔ d.job.status = .succeeded) ∧
      d.progress.terminalStatus = outcome d.job.status := by
  obtain ⟨c, d, -, first, second, succeeded, -⟩ := brew_compiled
  exact ⟨d, first.trans second, succeeded, percent_full_iff (first.trans second)⟩

/-- A compile cut off after its artifact was stored, which is claimed again and does not get through. -/
theorem stored_never_again_brewing : ∃ d e,
    Run (Compile.step brewIdentity) anyStep (.queued brewIdentity 3 (some .compiling)) d ∧ Doomed d ∧
      Run (Compile.step brewIdentity) anyStep d e ∧ e.status ≠ .succeeded ∧
      e.job.status ≠ .succeeded := by
  obtain ⟨c, -, e, first, -, -, cut, doomed, f, again⟩ := brew_compiled
  exact ⟨e, f, first.trans cut, doomed, again, stored_never_again (first.trans cut) doomed again⟩

end Psop.Compiler
