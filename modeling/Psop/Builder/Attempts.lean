import Psop.Agents.Sandbox
import Psop.Builder.Files
import Psop.Builder.Images
import Psop.Runs

/-!
The attempts of a builder agent in one sandbox.

Every attempt at one generation runs under the generation's id, so it is given the directory the
attempts before it wrote to. Only `psop.builder.submit_candidate` writes to its outputs: the images,
the builder result and the draft files of a candidate that passed validation, one after another. An
invocation succeeds when the builder result is there as the agent stops, and the draft is read from
the files that lie there then. **`artifacts_own`** says that it reports its own artifact in every run
where no invocation stops on a builder result without a whole submission of its own behind it;
`earlier_artifact_reported` is a run of two attempts where the second one submits nothing.
-/
namespace Psop.Builder.Attempts
open Text

/-! ### The outputs directory -/

/-- A submission: the invocation it is made in and its number. -/
structure CallId where
  invocation : Nat
  call : Nat
deriving DecidableEq

/-- The builder result, with what is read back of it. -/
structure BuilderResult where
  files : Dict String String
  linkedReferenceImages : List Images.LinkedImage

inductive Content where
  | result (payload : BuilderResult)
  | text (content : String)
  | image (bytes : List UInt8)
  /-- What a write that was broken off leaves. -/
  | torn

/-- A file and the submission that wrote it. -/
structure File where
  content : Content
  writer : CallId

/-- A resolved host path. -/
abbrev Place := List (List Char)

abbrev Disk := Place → Option File

def Disk.put (disk : Disk) (place : Place) (file : File) : Disk :=
  fun other => if other = place then some file else disk other

def builderResultVirtualPath : List Char :=
  Agents.Sandbox.psopOutputsVirtualRoot ++ "/builder-result.json".toList

/-- `f"{BUILDER_DRAFT_FILES_VIRTUAL_ROOT}/{path}"` -/
def draftVirtualPath (path : String) : List Char :=
  Agents.Sandbox.psopOutputsVirtualRoot ++ "/skill-draft".toList ++ '/' :: path.toList

variable (sandbox : Agents.Sandbox.LocalAgentSandbox)

/-- `outputs/builder-result.json` -/
def resultPlace : Place := sandbox.outputsPath.names ++ ["builder-result.json".toList]

/-- `(root / path).resolve()` for the root `outputs/skill-draft` a draft is read from. -/
def draftPlace (path : String) : Place :=
  Agents.Sandbox.resolve (sandbox.outputsPath.names ++ ["skill-draft".toList]) path.toList

/-! ### A submission -/

structure ReferenceAssetFile where
  assetId : String
  referencePath : String
  mimeType : String
  contentBase64 : String

/-- What a call of `psop.builder.submit_candidate` is given, and what the checks of the candidate
other than those of its files report. -/
structure Submission where
  files : Dict String String
  selectedReferenceAssets : List SelectedReferenceAsset
  referenceAssetFiles : List ReferenceAssetFile
  requireAvailable : Bool
  otherDiagnostics : List Diagnostic

/-- The submission passes validation. -/
def Accepted (submission : Submission) : Prop :=
  (validateFiles submission.files).diagnostics = [] ∧ submission.otherDiagnostics = []

instance (submission : Submission) : Decidable (Accepted submission) :=
  decidable_of_iff ((validateFiles submission.files).diagnostics.isEmpty = true ∧
    submission.otherDiagnostics.isEmpty = true) (by simp [Accepted, List.isEmpty_iff])

/-- What a submission does: it writes a file or raises. -/
inductive Action where
  | write (virtualPath : List Char) (content : Content)
  | stop (message : String)

/-- The last file of those a dictionary by a key would hold. -/
def fileBy (key : ReferenceAssetFile → String) (value : String) (files : List ReferenceAssetFile) :
    Option ReferenceAssetFile :=
  files.reverse.find? fun file => strip (key file) ≠ "" && strip (key file) = value

section Submit
-- `base64.b64decode(content, validate=True)`, or nothing where it raises.
variable (decode : String → Option (List UInt8))

/-- The loop of `_write_reference_asset_files`, which may raise after some images are written. -/
def referenceActions (submission : Submission) :
    List String → List SelectedReferenceAsset → List Action
  | _, [] => []
  | seenPaths, item :: rest =>
    let referencePath := strip item.referencePath
    if referencePath = "" || referencePath ∈ seenPaths then
      referenceActions submission seenPaths rest
    else
      match (fileBy ReferenceAssetFile.assetId (strip item.assetId)
          submission.referenceAssetFiles).or
        (fileBy ReferenceAssetFile.referencePath referencePath submission.referenceAssetFiles) with
      | none =>
        if submission.requireAvailable && Images.looksLikeImageReference referencePath then
          [.stop ("缺少可物化参考图片内容：" ++ referencePath)]
        else referenceActions submission seenPaths rest
      | some file =>
        let mimeType := strip (Images.orElse file.mimeType (Images.mimeTypeFromPath referencePath))
        let content := strip file.contentBase64
        if !startsWith "image/" mimeType || content = "" then
          referenceActions submission seenPaths rest
        else match decode content with
          | none => [.stop ("参考图片内容不是合法 base64：" ++ referencePath)]
          | some bytes =>
            .write (draftVirtualPath referencePath) (.image bytes) ::
              referenceActions submission (referencePath :: seenPaths) rest

/-- The linked files of a candidate that passed validation. -/
def linkedFiles (submission : Submission) : Dict String String × List Images.LinkedImage :=
  Images.linkReferenceImagesInFiles (validateFiles submission.files).normalized
    submission.selectedReferenceAssets

def builderResult (submission : Submission) : BuilderResult where
  files := (validateFiles submission.files).normalized
  linkedReferenceImages := (linkedFiles submission).2

/-- `_submit_candidate` from validation on: the images, the builder result, the files. -/
def submitActions (submission : Submission) : List Action :=
  referenceActions decode submission [] submission.selectedReferenceAssets ++
    .write builderResultVirtualPath (.result (builderResult submission)) ::
      ((linkedFiles submission).1.sorted keyOrder).entries.map fun (path, content) =>
        .write (draftVirtualPath path) (.text content)

end Submit

/-! ### Invocations -/

/-- A submission at work: the result it writes and what it has still to do. -/
structure Call where
  id : CallId
  payload : BuilderResult
  plan : List Action

inductive Status where
  | succeeded | failed
deriving DecidableEq

structure State where
  disk : Disk
  invocation : Nat
  /-- The continuations the running invocation has used. -/
  running : Option Nat
  calls : Nat
  active : List Call
  /-- The submissions that passed validation. -/
  accepted : List CallId
  /-- The last submission of the invocation that came to its end, until one of its files is
  written over. -/
  settled : Option (CallId × BuilderResult)
  returned : Option Status

def State.init : State := ⟨fun _ => none, 0, none, 0, [], [], none, none⟩

/-- A submission writes to a place, or a draft is read from it. -/
def Uses (payload : BuilderResult) (place : Place) : Prop :=
  place = resultPlace sandbox ∨ ∃ path ∈ payload.files.keys, draftPlace sandbox path = place

instance (payload : BuilderResult) (place : Place) : Decidable (Uses sandbox payload place) :=
  inferInstanceAs (Decidable (_ ∨ _))

def State.wrote (s : State) (place : Place) (file : File) : State :=
  { s with
    disk := s.disk.put place file
    settled := s.settled.filter fun whole => !decide (Uses sandbox whole.2 place) }

/-- The submission returns or raises, which ends it. -/
def State.drop (s : State) (k : Nat) : State := { s with active := s.active.eraseIdx k }

/-- A write that is broken off. -/
def State.tear (s : State) (k : Nat) : State :=
  match s.active[k]? with
  | some ⟨id, _, .write virtualPath _ :: _⟩ =>
    match Agents.Sandbox.resolveVirtualPath sandbox virtualPath with
    | .ok place => s.wrote sandbox place ⟨.torn, id⟩
    | .error _ => s
  | _ => s

def maxContinuations : Nat := 2

inductive Label where
  /-- An attempt acquires the sandbox. -/
  | start
  | submit (submission : Submission)
  /-- The `k`-th submission at work goes on. -/
  | advance (k : Nat)
  /-- A write of the `k`-th submission at work fails, with or without a part of it done. -/
  | fail (k : Nat) (torn : Bool)
  /-- The agent stops. -/
  | answer
  /-- The invocation ends by an exception. -/
  | abort
  /-- The process dies, perhaps within a write of the `k`-th submission. -/
  | crash (torn : Option Nat)

variable (decode : String → Option (List UInt8))

/-- The next action of the `k`-th submission at work. -/
def advance (s : State) (k : Nat) (call : Call) : State :=
  match call.plan with
  | [] => { s.drop k with settled := some (call.id, call.payload) }
  | .stop _ :: _ => s.drop k
  | .write virtualPath content :: rest =>
    match Agents.Sandbox.resolveVirtualPath sandbox virtualPath with
    | .error _ => s.drop k
    | .ok place =>
      { s.wrote sandbox place ⟨content, call.id⟩ with
        active := s.active.set k { call with plan := rest } }

/-- One round of `LangChainAgentExecutor.invoke`: the builder result is there, or the agent is asked
again as long as there are continuations left. -/
def answer (s : State) (round : Nat) : State :=
  if (s.disk (resultPlace sandbox)).isSome then
    { s with running := none, returned := some .succeeded }
  else if maxContinuations ≤ round then { s with running := none, returned := some .failed }
  else { s with running := some (round + 1) }

def step (s : State) : Label → Option State
  | .start =>
    if s.running = none then
      some { s with
        invocation := s.invocation + 1, running := some 0, settled := none, returned := none }
    else none
  | .submit submission =>
    if s.running = none then none
    else if Accepted submission then
      let id : CallId := ⟨s.invocation, s.calls⟩
      some { s with
        calls := s.calls + 1
        accepted := id :: s.accepted
        active := s.active ++
          [⟨id, builderResult submission, submitActions decode submission⟩] }
    else some s
  | .advance k => (s.active[k]?).map (advance sandbox s k)
  | .fail k torn =>
    (s.active[k]?).map fun _ => (if torn then s.tear sandbox k else s).drop k
  | .answer =>
    match s.running with
    | none => none
    | some round => if s.active.isEmpty then some (answer sandbox s round) else none
  | .abort =>
    if s.running = none || !s.active.isEmpty then none
    else some { s with running := none, returned := some .failed }
  | .crash torn =>
    if s.running = none then none
    else some { (torn.elim s (s.tear sandbox)) with running := none, active := [] }

/-! ### Places -/

theorem result_resolves :
    Agents.Sandbox.resolveVirtualPath sandbox builderResultVirtualPath =
      .ok (resultPlace sandbox) := by
  have straight : Agents.Sandbox.hasParentTraversal builderResultVirtualPath = false := by decide
  have relative : Agents.Sandbox.relativeTo Agents.Sandbox.psopOutputsVirtualRoot
      builderResultVirtualPath = "builder-result.json".toList := by decide
  have names : Agents.Sandbox.parts "builder-result.json".toList =
      ["builder-result.json".toList] := by decide
  rw [Agents.Sandbox.resolveVirtualPath, if_neg (by decide), if_neg (by decide),
    if_neg (by decide), straight, if_neg Bool.false_ne_true, if_neg (by decide),
    if_neg (by decide), if_neg (by decide), if_pos (by decide), relative,
    Agents.Sandbox.resolve_inside_ok (by rw [names]; decide), names]
  rfl

theorem draft_parts (path : List Char) :
    Agents.Sandbox.parts ("skill-draft".toList ++ '/' :: path) =
      "skill-draft".toList :: Agents.Sandbox.parts path := by
  have first : Paths.words '/' "skill-draft".toList = ["skill-draft".toList] :=
    Paths.words_plain (by decide) (by decide)
  rw [Agents.Sandbox.parts, Paths.words_append, first, List.singleton_append,
    List.filter_cons_of_pos (by decide)]
  rfl

/-- What a virtual path of a draft file starts with. -/
def draftLead : List Char := Agents.Sandbox.psopOutputsVirtualRoot ++ "/skill-draft/".toList

theorem draft_lead (path : String) : draftVirtualPath path = draftLead ++ path.toList := by
  simp [draftVirtualPath, draftLead]

/-- A text that is no prefix of the lead and no longer is none of the path. -/
theorem not_prefix_draft {lead : List Char} (short : lead.length ≤ draftLead.length)
    (apart : ¬lead <+: draftLead) (path : String) : ¬lead <+: draftVirtualPath path := by
  intro isPrefix
  rw [draft_lead] at isPrefix
  exact apart (List.prefix_of_prefix_length_le isPrefix (List.prefix_append _ _) short)

/-- A draft file is written where it is read from, and not where the builder result is. -/
theorem draft_resolves {path : String} {place : Place}
    (resolved : Agents.Sandbox.resolveVirtualPath sandbox (draftVirtualPath path) = .ok place) :
    place = draftPlace sandbox path ∧ place ≠ resultPlace sandbox := by
  have isDraft := draft_lead path
  have under : Agents.Sandbox.psopOutputsVirtualRoot ++ ['/'] <+: draftVirtualPath path := by
    rw [isDraft]
    exact List.IsPrefix.trans (by decide) (List.prefix_append _ _)
  have relative : Agents.Sandbox.relativeTo Agents.Sandbox.psopOutputsVirtualRoot
      (draftVirtualPath path) = "skill-draft".toList ++ '/' :: path.toList := by
    rw [Agents.Sandbox.relativeTo, draftVirtualPath, List.append_assoc, List.drop_left]
    rfl
  have own := Agents.Sandbox.parts_under under
  rw [Agents.Sandbox.resolveVirtualPath] at resolved
  split at resolved
  · cases resolved
  split at resolved
  · cases resolved
  split at resolved
  · cases resolved
  split at resolved
  · cases resolved
  rename_i straight
  have inside := Agents.Sandbox.not_traversal.mp (Bool.not_eq_true _ ▸ straight)
  have longer : ∀ root : List Char, root.length < draftLead.length → draftVirtualPath path ≠ root := by
    intro root short same
    rw [isDraft] at same
    have lengths := congrArg List.length same
    rw [List.length_append] at lengths
    omega
  rw [if_neg (longer _ (by decide)),
    if_neg (not_prefix_draft (by decide) (by decide) path), if_neg (longer _ (by decide)),
    relative] at resolved
  rw [own, relative] at inside
  have below : ∀ part ∈ Agents.Sandbox.parts ("skill-draft".toList ++ '/' :: path.toList),
      part ≠ ['.', '.'] := fun part isPart => inside part (List.mem_append_right _ isPart)
  rw [Agents.Sandbox.resolve_inside_ok below, draft_parts] at resolved
  rw [draft_parts] at below
  have isPlace := (Except.ok.inj resolved).symm
  constructor
  · rw [draftPlace, Agents.Sandbox.resolve_append fun part isPart =>
      below part (List.mem_cons_of_mem _ isPart), List.append_assoc, List.singleton_append]
    exact isPlace
  · intro same
    have names := List.append_cancel_left (isPlace.symm.trans same)
    rw [List.cons.injEq] at names
    exact absurd names.1 (by decide)

/-! ### What a submission does -/

/-- The actions of a submission with a builder result: that result and each file the draft has are
written. -/
structure Plans (payload : BuilderResult) (actions : List Action) : Prop where
  known : ∀ virtualPath content, .write virtualPath content ∈ actions →
    (virtualPath = builderResultVirtualPath ∧ content = .result payload) ∨
      ∃ path, virtualPath = draftVirtualPath path
  result : .write builderResultVirtualPath (.result payload) ∈ actions
  files : ∀ path ∈ payload.files.keys, ∃ content, .write (draftVirtualPath path) content ∈ actions

/-- The draft that is read back has only files that were checked. -/
def Readable (payload : BuilderResult) : Prop :=
  ∀ draft, parseGeneratedFiles (payload.files.sorted keyOrder) = .ok draft →
    ∀ path ∈ draft.keys, path ∈ payload.files.keys

theorem reference_writes (submission : Submission) (seenPaths : List String)
    (selected : List SelectedReferenceAsset) {virtualPath : List Char} {content : Content}
    (isWrite : .write virtualPath content ∈ referenceActions decode submission seenPaths selected) :
    ∃ path, virtualPath = draftVirtualPath path := by
  fun_induction referenceActions decode submission seenPaths selected with
  | case1 => cases isWrite
  | case2 _ _ _ _ _ ih => exact ih isWrite
  | case3 => cases isWrite with | tail _ later => cases later
  | case4 _ _ _ _ _ _ _ ih => exact ih isWrite
  | case5 _ _ _ _ _ _ _ _ _ _ ih => exact ih isWrite
  | case6 => cases isWrite with | tail _ later => cases later
  | case7 _ _ _ referencePath _ _ _ _ _ _ _ _ ih =>
    rcases List.mem_cons.mp isWrite with first | later
    · exact ⟨referencePath, (Action.write.inj first).1⟩
    · exact ih later

theorem linked_keys (submission : Submission) :
    (linkedFiles submission).1.keys = (builderResult submission).files.keys := by
  rw [linkedFiles, builderResult]
  by_cases none : Images.buildMarkdownImageRefs submission.selectedReferenceAssets = []
  · rw [Images.linkReferenceImagesInFiles, none]
    rfl
  · rw [Dict.keys, Images.linked_files none, List.map_map]
    rfl

theorem submit_plans (submission : Submission) :
    Plans (builderResult submission) (submitActions decode submission) := by
  constructor
  · intro virtualPath content isWrite
    rcases List.mem_append.mp isWrite with isImage | isLater
    · exact .inr (reference_writes decode submission _ _ isImage)
    rcases List.mem_cons.mp isLater with isResult | isText
    · exact .inl (Action.write.inj isResult)
    · obtain ⟨entry, -, same⟩ := List.mem_map.mp isText
      exact .inr ⟨entry.1, (Action.write.inj same).1.symm⟩
  · exact List.mem_append_right _ List.mem_cons_self
  · intro path isKey
    rw [← linked_keys, ← Dict.mem_keys_sorted keyOrder] at isKey
    obtain ⟨entry, isEntry, rfl⟩ := List.mem_map.mp isKey
    exact ⟨.text entry.2, List.mem_append_right _ (List.mem_cons_of_mem _
      (List.mem_map.mpr ⟨entry, isEntry, rfl⟩))⟩

theorem readable_of_snug {submission : Submission} (accepted : Accepted submission)
    (snug : ∀ path ∈ submission.files.keys, Snug path) : Readable (builderResult submission) := by
  intro draft parsed path isKey
  obtain ⟨draft', parsed', same⟩ := checked_parsed accepted.1 snug
  obtain rfl := Except.ok.inj (parsed'.symm.trans parsed)
  obtain ⟨content, found⟩ := Dict.mem_keys.mp isKey
  exact Dict.mem_keys.mpr ⟨content, (same path).symm.trans found⟩

/-! ### The artifact of an invocation -/

/-- The builder result and the draft files read with it were written by one submission of the
invocation that passed validation. -/
def Own (s : State) : Prop :=
  ∃ id ∈ s.accepted, id.invocation = s.invocation ∧
    ∃ payload, s.disk (resultPlace sandbox) = some ⟨.result payload, id⟩ ∧
      ∀ draft, parseGeneratedFiles (payload.files.sorted keyOrder) = .ok draft →
        ∀ path ∈ draft.keys, ∀ file, s.disk (draftPlace sandbox path) = some file →
          file.writer = id

/-- The steps under which an invocation reports what is its own. A submission that passes validation
is made when no other is at work, and names its files by `Snug` paths; the agent stops on a builder
result only after a submission of this invocation came to its end, none of whose files was written
over since. -/
def Attributable (s : State) : Label → Prop
  | .submit submission =>
    Accepted submission → s.active = [] ∧ ∀ path ∈ submission.files.keys, Snug path
  | .answer => (s.disk (resultPlace sandbox)).isSome = true → s.settled.isSome = true
  | _ => True

/-- A submission of the running invocation that lies whole in the outputs. -/
structure Whole (s : State) (id : CallId) (payload : BuilderResult) : Prop where
  invocation : id.invocation = s.invocation
  accepted : id ∈ s.accepted
  result : s.disk (resultPlace sandbox) = some ⟨.result payload, id⟩
  files : ∀ path ∈ payload.files.keys, ∀ file, s.disk (draftPlace sandbox path) = some file →
    file.writer = id
  readable : Readable payload

/-- What a submission has done lies in the outputs. -/
structure Done (disk : Disk) (id : CallId) (payload : BuilderResult) (done : List Action) :
    Prop where
  result : ∀ content, .write builderResultVirtualPath content ∈ done →
    disk (resultPlace sandbox) = some ⟨.result payload, id⟩
  files : ∀ path content, .write (draftVirtualPath path) content ∈ done →
    ∃ file, disk (draftPlace sandbox path) = some file ∧ file.writer = id

/-- A submission at work: some of its actions are done, the others are its plan. -/
structure Working (s : State) (call : Call) : Prop where
  invocation : call.id.invocation = s.invocation
  accepted : call.id ∈ s.accepted
  readable : Readable call.payload
  progress : ∃ done, Plans call.payload (done ++ call.plan) ∧
    Done sandbox s.disk call.id call.payload done

/-- What holds of every state of a run with only sound steps. -/
structure AttemptInvariant (s : State) : Prop where
  settled : ∀ whole, s.settled = some whole → Whole sandbox s whole.1 whole.2
  active : ∀ call ∈ s.active, Working sandbox s call
  alone : s.active.length ≤ 1
  idle : s.running = none → s.active = []
  returned : s.returned = some .succeeded → s.running = none ∧ s.settled.isSome = true

theorem init_kept : AttemptInvariant sandbox State.init where
  settled := nofun
  active := nofun
  alone := Nat.zero_le _
  idle := fun _ => rfl
  returned := nofun

variable {sandbox} {s : State}

theorem put_same (disk : Disk) (place : Place) (file : File) :
    disk.put place file place = some file := if_pos rfl

theorem put_other {disk : Disk} {place other : Place} {file : File} (differs : other ≠ place) :
    disk.put place file other = disk other := if_neg differs

/-- A whole submission reports what is its own. -/
theorem whole_own {id : CallId} {payload : BuilderResult} (whole : Whole sandbox s id payload) :
    Own sandbox s :=
  ⟨id, whole.accepted, whole.invocation, payload, whole.result,
    fun draft parsed path isKey file isFile =>
      whole.files path (whole.readable draft parsed path isKey) file isFile⟩

/-- A submission that did all its actions is whole. -/
theorem working_whole {call : Call} (working : Working sandbox s call) (ended : call.plan = []) :
    Whole sandbox s call.id call.payload := by
  obtain ⟨done, plans, isDone⟩ := working.progress
  rw [ended, List.append_nil] at plans
  refine ⟨working.invocation, working.accepted, isDone.result _ plans.result,
    fun path isKey file isFile => ?_, working.readable⟩
  obtain ⟨content, isWrite⟩ := plans.files path isKey
  obtain ⟨own, isOwn, byCall⟩ := isDone.files path content isWrite
  obtain rfl := Option.some.inj (isFile.symm.trans isOwn)
  exact byCall

/-- Another write of a submission at work. -/
theorem working_wrote {call : Call} (working : Working sandbox s call) {virtualPath : List Char}
    {content : Content} {rest : List Action} {place : Place}
    (plan : call.plan = .write virtualPath content :: rest)
    (resolved : Agents.Sandbox.resolveVirtualPath sandbox virtualPath = .ok place) :
    Working sandbox (s.wrote sandbox place ⟨content, call.id⟩) { call with plan := rest } := by
  obtain ⟨done, plans, isDone⟩ := working.progress
  rw [plan] at plans
  refine ⟨working.invocation, working.accepted, working.readable,
    done ++ [.write virtualPath content], ?_, ?_, ?_⟩
  · rw [List.append_assoc, List.singleton_append]
    exact plans
  · intro other isWrite
    show (s.disk.put place _) _ = _
    by_cases here : resultPlace sandbox = place
    · rw [here, put_same]
      rcases plans.known virtualPath content (List.mem_append_right _ List.mem_cons_self) with
        ⟨-, rfl⟩ | ⟨path, rfl⟩
      · rfl
      · exact absurd here.symm (draft_resolves sandbox resolved).2
    · rw [put_other here]
      rcases List.mem_append.mp isWrite with before | now
      · exact isDone.result other before
      · obtain ⟨rfl, -⟩ := Action.write.inj (List.mem_singleton.mp now)
        rw [result_resolves] at resolved
        exact absurd (Except.ok.inj resolved) here
  · intro path other isWrite
    show ∃ file, (s.disk.put place _) _ = _ ∧ _
    by_cases here : draftPlace sandbox path = place
    · rw [here, put_same]
      exact ⟨_, rfl, rfl⟩
    · rw [put_other here]
      rcases List.mem_append.mp isWrite with before | now
      · exact isDone.files path other before
      · obtain ⟨rfl, -⟩ := Action.write.inj (List.mem_singleton.mp now)
        exact absurd (draft_resolves sandbox resolved).1.symm here

/-- A whole submission stays so while nothing it uses is written. -/
theorem settled_wrote (settled : ∀ whole, s.settled = some whole → Whole sandbox s whole.1 whole.2)
    (place : Place) (file : File) : ∀ whole, (s.wrote sandbox place file).settled = some whole →
      Whole sandbox (s.wrote sandbox place file) whole.1 whole.2 := by
  intro whole isWhole
  obtain ⟨before, unused⟩ := Option.filter_eq_some_iff.mp isWhole
  have apart : ¬Uses sandbox whole.2 place := by simpa using unused
  have old := settled whole before
  refine ⟨old.invocation, old.accepted, ?_, fun path isKey other isFile => ?_, old.readable⟩
  · show (s.disk.put place file) _ = _
    rw [put_other fun same => apart (.inl same.symm)]
    exact old.result
  · refine old.files path isKey other ?_
    rw [← isFile]
    exact (put_other fun same => apart (.inr ⟨path, isKey, same⟩)).symm

/-! ### Runs -/

/-- Without submissions at work only the whole one matters. -/
theorem kept_idle (empty : s.active = [])
    (settled : ∀ whole, s.settled = some whole → Whole sandbox s whole.1 whole.2)
    (returned : s.returned = some .succeeded → s.running = none ∧ s.settled.isSome = true) :
    AttemptInvariant sandbox s where
  settled := settled
  active := by rw [empty]; exact nofun
  alone := by rw [empty]; exact Nat.zero_le _
  idle := fun _ => empty
  returned := returned

/-- A whole submission is whole in every state with the same outputs. -/
theorem settled_same {t : State}
    (settled : ∀ whole, s.settled = some whole → Whole sandbox s whole.1 whole.2)
    (disk : t.disk = s.disk) (invocation : t.invocation = s.invocation)
    (accepted : s.accepted ⊆ t.accepted) (still : t.settled = s.settled) :
    ∀ whole, t.settled = some whole → Whole sandbox t whole.1 whole.2 := by
  intro whole isWhole
  have old := settled whole (still ▸ isWhole)
  exact ⟨invocation ▸ old.invocation, accepted old.accepted, disk ▸ old.result,
    disk ▸ old.files, old.readable⟩

theorem AttemptInvariant.only (kept : AttemptInvariant sandbox s) {k : Nat} {call : Call}
    (isCall : s.active[k]? = some call) : k = 0 ∧ s.active = [call] := by
  have alone := kept.alone
  match active : s.active with
  | [] => rw [active] at isCall; cases isCall
  | [first] =>
    rw [active] at isCall
    match k with
    | 0 => exact ⟨rfl, congrArg ([·]) (Option.some.inj isCall)⟩
    | _ + 1 => cases isCall
  | _ :: _ :: _ =>
    rw [active, List.length_cons, List.length_cons] at alone
    omega

/-- As long as a submission is at work, the invocation runs and has not returned. -/
theorem AttemptInvariant.unreturned (kept : AttemptInvariant sandbox s) (runs : s.running ≠ none) :
    s.returned ≠ some .succeeded :=
  fun isReturned => runs (kept.returned isReturned).1

theorem AttemptInvariant.runs (kept : AttemptInvariant sandbox s) {call : Call} (active : s.active = [call]) :
    s.running ≠ none := by
  intro stopped
  rw [kept.idle stopped] at active
  cases active

theorem tear_settled (settled : ∀ whole, s.settled = some whole → Whole sandbox s whole.1 whole.2)
    (k : Nat) : ∀ whole, (s.tear sandbox k).settled = some whole →
      Whole sandbox (s.tear sandbox k) whole.1 whole.2 := by
  unfold State.tear
  split
  · split
    · exact settled_wrote settled _ _
    · exact settled
  · exact settled

theorem tear_returned (s : State) (k : Nat) : (s.tear sandbox k).returned = s.returned := by
  unfold State.tear
  split
  · split <;> rfl
  · rfl

theorem tear_active (s : State) (k : Nat) : (s.tear sandbox k).active = s.active := by
  unfold State.tear
  split
  · split <;> rfl
  · rfl

theorem kept_submit (kept : AttemptInvariant sandbox s) (submission : Submission) (runs : s.running ≠ none)
    (accepted : Accepted submission) (sound : Attributable sandbox s (.submit submission)) :
    AttemptInvariant sandbox { s with
      calls := s.calls + 1
      accepted := ⟨s.invocation, s.calls⟩ :: s.accepted
      active := s.active ++
        [⟨⟨s.invocation, s.calls⟩, builderResult submission, submitActions decode submission⟩] } := by
  obtain ⟨empty, snug⟩ := sound accepted
  refine ⟨settled_same kept.settled rfl rfl (List.subset_cons_self _ _) rfl, fun call isCall => ?_,
    ?_, fun stopped => absurd stopped runs, kept.returned⟩
  · rw [empty, List.nil_append, List.mem_singleton] at isCall
    subst isCall
    exact ⟨rfl, List.mem_cons_self, readable_of_snug accepted snug, [], submit_plans decode _,
      nofun, nofun⟩
  · rw [empty]
    exact Nat.le_refl _

theorem kept_advance (kept : AttemptInvariant sandbox s) {k : Nat} {call : Call}
    (isCall : s.active[k]? = some call) : AttemptInvariant sandbox (advance sandbox s k call) := by
  obtain ⟨rfl, only⟩ := kept.only isCall
  have working := kept.active call (only ▸ List.mem_cons_self)
  have unreturned := kept.unreturned (kept.runs only)
  have dropped : (s.drop 0).active = [] := by rw [State.drop, only]; rfl
  unfold advance
  split
  · rename_i ended
    refine kept_idle dropped (fun whole isWhole => ?_) fun isReturned => absurd isReturned unreturned
    obtain rfl := Option.some.inj isWhole
    have whole := working_whole working ended
    exact ⟨whole.invocation, whole.accepted, whole.result, whole.files, whole.readable⟩
  · exact kept_idle dropped (settled_same kept.settled rfl rfl (List.Subset.refl _) rfl) kept.returned
  · rename_i virtualPath content rest plan
    split
    · exact kept_idle dropped (settled_same kept.settled rfl rfl (List.Subset.refl _) rfl) kept.returned
    · rename_i place resolved
      have wrote := working_wrote working plan resolved
      refine ⟨settled_same (settled_wrote kept.settled place ⟨content, call.id⟩) rfl rfl (List.Subset.refl _) rfl,
        fun other isOther => ?_, ?_, fun stopped => ?_,
        fun isReturned => absurd isReturned unreturned⟩
      · have same : other = { call with plan := rest } := by
          rw [only] at isOther
          exact List.mem_singleton.mp isOther
        subst same
        exact ⟨wrote.invocation, wrote.accepted, wrote.readable, wrote.progress⟩
      · show (s.active.set 0 _).length ≤ 1
        rw [only]
        exact Nat.le_refl _
      · exact absurd stopped (kept.runs only)

theorem kept_fail (kept : AttemptInvariant sandbox s) {k : Nat} {call : Call}
    (isCall : s.active[k]? = some call) (torn : Bool) :
    AttemptInvariant sandbox ((if torn then s.tear sandbox k else s).drop k) := by
  obtain ⟨rfl, only⟩ := kept.only isCall
  have unreturned := kept.unreturned (kept.runs only)
  cases torn
  · rw [if_neg Bool.false_ne_true]
    exact kept_idle (by rw [State.drop, only]; rfl)
      (settled_same kept.settled rfl rfl (List.Subset.refl _) rfl) kept.returned
  · rw [if_pos rfl]
    exact kept_idle (by rw [State.drop, tear_active, only]; rfl)
      (settled_same (tear_settled kept.settled 0) rfl rfl (List.Subset.refl _) rfl)
      fun isReturned => absurd (tear_returned s 0 ▸ isReturned) unreturned

theorem kept_answer (kept : AttemptInvariant sandbox s) {round : Nat} (runs : s.running = some round)
    (empty : s.active = []) (sound : Attributable sandbox s .answer) :
    AttemptInvariant sandbox (answer sandbox s round) := by
  unfold answer
  split
  · rename_i there
    exact kept_idle empty (settled_same kept.settled rfl rfl (List.Subset.refl _) rfl) fun _ => ⟨rfl, sound there⟩
  split
  · exact kept_idle empty (settled_same kept.settled rfl rfl (List.Subset.refl _) rfl) nofun
  · refine kept_idle empty (settled_same kept.settled rfl rfl (List.Subset.refl _) rfl) fun isReturned => ?_
    exact absurd isReturned (kept.unreturned (by rw [runs]; exact nofun))

theorem kept_crash (kept : AttemptInvariant sandbox s) (runs : s.running ≠ none) (torn : Option Nat) :
    AttemptInvariant sandbox { (torn.elim s (s.tear sandbox)) with running := none, active := [] } := by
  have unreturned := kept.unreturned runs
  cases torn with
  | none =>
    exact kept_idle rfl (settled_same kept.settled rfl rfl (List.Subset.refl _) rfl)
      fun isReturned => absurd isReturned unreturned
  | some k =>
    exact kept_idle rfl (settled_same (tear_settled kept.settled k) rfl rfl (List.Subset.refl _) rfl)
      fun isReturned => absurd (tear_returned s k ▸ isReturned) unreturned

/-- Every sound step keeps the invariant. -/
theorem step_kept (s : State) (label : Label) (t : State) (kept : AttemptInvariant sandbox s)
    (sound : Attributable sandbox s label) (stepped : step sandbox decode s label = some t) :
    AttemptInvariant sandbox t := by
  cases label with
  | start =>
    simp only [step, Option.ite_none_right_eq_some, Option.some.injEq] at stepped
    obtain ⟨stopped, rfl⟩ := stepped
    exact kept_idle (kept.idle stopped) nofun nofun
  | submit submission =>
    simp only [step] at stepped
    split at stepped
    · cases stepped
    rename_i runs
    split at stepped
    · rename_i accepted
      obtain rfl := Option.some.inj stepped
      exact kept_submit decode kept submission runs accepted sound
    · obtain rfl := Option.some.inj stepped
      exact kept
  | advance k =>
    obtain ⟨call, isCall, rfl⟩ := Option.map_eq_some_iff.mp stepped
    exact kept_advance kept isCall
  | fail k torn =>
    obtain ⟨call, isCall, rfl⟩ := Option.map_eq_some_iff.mp stepped
    exact kept_fail kept isCall torn
  | answer =>
    simp only [step] at stepped
    split at stepped
    · cases stepped
    rename_i round runs
    split at stepped
    · rename_i empty
      obtain rfl := Option.some.inj stepped
      exact kept_answer kept runs (List.isEmpty_iff.mp empty) sound
    · cases stepped
  | abort =>
    simp only [step] at stepped
    split at stepped
    · cases stepped
    rename_i mayEnd
    obtain rfl := Option.some.inj stepped
    have empty : s.active = [] := by simp_all
    exact kept_idle empty (settled_same kept.settled rfl rfl (List.Subset.refl _) rfl) nofun
  | crash torn =>
    simp only [step] at stepped
    split at stepped
    · cases stepped
    rename_i runs
    obtain rfl := Option.some.inj stepped
    exact kept_crash kept runs torn

/-- **A reported artifact** is its invocation's own: in every run with only sound steps, as an
invocation returns that it succeeded, the builder result and the draft files read with it were
written by one of its own submissions, which passed validation. -/
theorem artifacts_own (sandbox : Agents.Sandbox.LocalAgentSandbox)
    (decode : String → Option (List UInt8)) {s : State}
    (run : Run (step sandbox decode) (Attributable sandbox) .init s)
    (succeeded : s.returned = some .succeeded) : Own sandbox s := by
  have kept := run.invariant (step_kept decode) (init_kept sandbox)
  obtain ⟨whole, isWhole⟩ := Option.isSome_iff_exists.mp (kept.returned succeeded).2
  exact whole_own (kept.settled whole isWhole)

/-! ### Two attempts -/

instance (s : State) (label : Label) : Decidable (Attributable sandbox s label) := by
  cases label <;> unfold Attributable <;> infer_instance

theorem run_names : ∀ name ∈ ["run".toList, "workspace".toList, "outputs".toList],
    Agents.Sandbox.Name name := by
  simp only [List.forall_mem_cons, List.not_mem_nil, false_implies, implies_true, and_true]
  refine ⟨?_, ?_, ?_⟩ <;> constructor <;> decide

/-- The sandbox of one run. -/
def runSandbox : Agents.Sandbox.LocalAgentSandbox where
  workspacePath := ⟨["run".toList, "workspace".toList], fun name isName =>
    run_names name (by grind)⟩
  outputsPath := ⟨["run".toList, "outputs".toList], fun name isName =>
    run_names name (by grind)⟩

/-- An attempt that submits the required files, writes them and stops. -/
def brewAttempt : List Label :=
  [Label.start, .submit ⟨brewFiles, [], [], false, []⟩] ++ List.replicate 9 (Label.advance 0) ++
    [Label.answer]

theorem artifacts_own_brew :
    ∃ s, Run (step runSandbox fun _ => none) (Attributable runSandbox) .init s ∧
      s.returned = some .succeeded ∧ Own runSandbox s := by
  have ran : (follow (step runSandbox fun _ => none) (Attributable runSandbox) .init brewAttempt).any
      (fun s => s.returned = some .succeeded) = true := by decide +kernel
  obtain ⟨s, followed, succeeded⟩ := (Option.any_eq_true ..).mp ran
  have run := run_of_follow followed
  have isSuccess := of_decide_eq_true succeeded
  exact ⟨s, run, isSuccess, artifacts_own runSandbox _ run isSuccess⟩

/-- The second attempt submits nothing and reports the artifact of the first. -/
theorem earlier_artifact_reported :
    ∃ s, Run (step runSandbox fun _ => none) anyStep .init s ∧
      s.returned = some .succeeded ∧ s.invocation = 2 ∧ ¬Own runSandbox s := by
  have ran : (follow (step runSandbox fun _ => none) anyStep .init
      (brewAttempt ++ [Label.start, .answer])).any (fun s =>
        s.returned = some .succeeded && s.invocation = 2 &&
          (s.disk (resultPlace runSandbox)).all fun file => file.writer.invocation = 1) = true := by
    decide +kernel
  obtain ⟨s, followed, checked⟩ := (Option.any_eq_true ..).mp ran
  simp only [Bool.and_eq_true, decide_eq_true_eq] at checked
  obtain ⟨⟨succeeded, second⟩, byFirst⟩ := checked
  refine ⟨s, run_of_follow followed, succeeded, second, ?_⟩
  rintro ⟨id, -, isSecond, payload, isResult, -⟩
  rw [isResult, Option.all_some, decide_eq_true_eq] at byFirst
  have isFirst : id.invocation = 1 := byFirst
  omega

end Psop.Builder.Attempts
