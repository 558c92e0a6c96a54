import Psop.Builder.Files
import Psop.Runs
import Mathlib.Algebra.Ring.Nat

/-!
A revised builder candidate and the baseline it is a revision of.

A target whose id and business value are those of the baseline is inherited. `reconcile` gives an
inherited target the baseline's evidence and industry standards where the candidate has none for it;
nothing else of the candidate changes. The baseline's evidence is taken over as it is, whatever its
sources are, while a target counts as covered only by a verifiable source. **`reconciled`** says what
follows, and when a second reconciliation finds nothing left to do.
-/
namespace Psop.Builder
open Text Skills

/-! ### Candidates -/

inductive EvidenceSourceType where
  | userDescription | currentSource | materialAnalysis | referenceAsset | industryStandard
  | builderInference | humanConfirmationRequired
deriving DecidableEq, Repr

def EvidenceSourceType.text : EvidenceSourceType → String
  | userDescription => "user_description"
  | currentSource => "current_source"
  | materialAnalysis => "material_analysis"
  | referenceAsset => "reference_asset"
  | industryStandard => "industry_standard"
  | builderInference => "builder_inference"
  | humanConfirmationRequired => "human_confirmation_required"

/-- `SUPPORTED_REQUIRED_EVIDENCE_SOURCE_TYPES` -/
def SUPPORTED_REQUIRED_EVIDENCE_SOURCE_TYPES : List EvidenceSourceType :=
  [.userDescription, .materialAnalysis, .referenceAsset, .industryStandard]

inductive EvidenceSupportLevel where
  | observedFact | standardReference | currentSourceFact | builderInference
  | humanConfirmationRequired | confirmedInstruction
deriving DecidableEq, Repr

inductive EvidenceTargetType where
  | workflowStage | safetyConstraint | expectedEvidence | reviewNotes
deriving DecidableEq, Repr

def EvidenceTargetType.text : EvidenceTargetType → String
  | workflowStage => "workflow_stage"
  | safetyConstraint => "safety_constraint"
  | expectedEvidence => "expected_evidence"
  | reviewNotes => "review_notes"

structure EvidenceSourceRef where
  sourceType : EvidenceSourceType
  ref : String := ""
  materialId : String := ""
  assetId : String := ""
  standardRef : String := ""
  clauseRef : String := ""
deriving DecidableEq, Repr

structure EvidenceUsageTarget where
  targetType : EvidenceTargetType
  targetId : String
deriving DecidableEq, Repr

structure EvidenceMapItem where
  claim : String
  supportLevel : EvidenceSupportLevel
  sourceRefs : List EvidenceSourceRef
  usedIn : List EvidenceUsageTarget
deriving DecidableEq, Repr

structure MaterialUsageItem where
  materialId : String
  usage : String
deriving DecidableEq, Repr

structure IndustryStandardUsageItem where
  standardRef : String := ""
  clauseRef : String := ""
  usage : String
  usedIn : List EvidenceUsageTarget
deriving DecidableEq, Repr

structure SelectedReferenceAsset where
  assetId : String
  materialId : String
  referencePath : String
  reason : String
  stageIds : List String
deriving DecidableEq, Repr

inductive BlockingLevel where
  | blocking | nonBlocking
deriving DecidableEq, Repr

structure MissingQuestionItem where
  question : String
  reason : String
  blockingLevel : BlockingLevel
deriving DecidableEq, Repr

inductive ConstraintScope where
  | allStages | selectedStages
deriving DecidableEq, Repr

structure SafetyConstraintItem where
  constraintId : String
  scope : ConstraintScope
  stageIds : List String
  constraint : String
  riskType : String
  requiredAction : String
deriving DecidableEq, Repr

structure WorkflowStepCandidate where
  stageId : String
  title : String
deriving DecidableEq, Repr

structure ExpectedEvidenceRequirement where
  requirementId : String
  stageId : String
  evidenceType : String
  completionCriteria : String
deriving DecidableEq, Repr

/-- A candidate of schema version 2.0. -/
structure BuilderCandidate where
  directoryTree : String
  files : Dict String String
  generationReason : String
  reviewNotes : List String
  materialUsage : List MaterialUsageItem
  industryStandardUsage : List IndustryStandardUsageItem
  selectedReferenceAssets : List SelectedReferenceAsset
  evidenceMap : List EvidenceMapItem
  missingQuestions : List MissingQuestionItem
  safetyConstraints : List SafetyConstraintItem
  workflowStepCandidates : List WorkflowStepCandidate
  expectedEvidenceRequirements : List ExpectedEvidenceRequirement
deriving DecidableEq

/-! ### The bodies of the workflow stages -/

/-- A Markdown heading: its level, the rest of its line, and where it starts and ends. -/
structure Heading where
  level : Nat
  text : List Char
  start : Nat
  stop : Nat
deriving DecidableEq, Repr

/-- `(?P<marks>#{1,6})\s+.*$` at a line start: the marks, the rest of the line after the white space,
which may span lines, and the length of the match. -/
def headingAt (cs : List Char) : Option (Nat × List Char × Nat) :=
  let marks := cs.takeWhile (· = '#')
  let rest := cs.dropWhile (· = '#')
  let space := rest.takeWhile isSpace
  let text := (rest.dropWhile isSpace).takeWhile (· ≠ '\n')
  if 1 ≤ marks.length ∧ marks.length ≤ 6 ∧ space ≠ [] then
    some (marks.length, text, marks.length + space.length + text.length)
  else none

/-- The headings from a position on; what a heading matched is skipped. -/
def findHeadings (position skip : Nat) (lineStart : Bool) : List Char → List Heading
  | [] => []
  | c :: rest =>
    if 0 < skip then findHeadings (position + 1) (skip - 1) (c = '\n') rest
    else if lineStart then match headingAt (c :: rest) with
      | some (level, text, length) => ⟨level, text, position, position + length⟩ ::
          findHeadings (position + 1) (length - 1) (c = '\n') rest
      | none => findHeadings (position + 1) 0 (c = '\n') rest
    else findHeadings (position + 1) 0 (c = '\n') rest

/-- `[a-z][a-z0-9_]{1,63}` -/
def isStableId (id : List Char) : Bool :=
  match id with
  | c :: rest => c.isLower && 1 ≤ rest.length && rest.length ≤ 63 &&
      rest.all fun d => d.isLower || d.isDigit || d = '_'
  | [] => false

/-- The stage id of a heading `[id] title`. -/
def stageHeadingId (text : List Char) : Option String :=
  match text with
  | '[' :: rest =>
    let id := rest.takeWhile (· ≠ ']')
    match rest.dropWhile (· ≠ ']') with
    | ']' :: space :: _ :: _ => if isStableId id ∧ isSpace space then some (String.ofList id) else none
    | _ => none
  | _ => none

/-- `replace("\r\n", "\n").replace("\r", "\n")` -/
def unixLines : List Char → List Char
  | '\r' :: '\n' :: rest => '\n' :: unixLines rest
  | '\r' :: rest => '\n' :: unixLines rest
  | c :: rest => c :: unixLines rest
  | [] => []

/-- The bodies of the stages under some headings: each ends at the next heading of its level or a
higher one. -/
def stageBodies (text : List Char) : List Heading → List (String × String)
  | [] => []
  | heading :: following =>
    let stop := ((following.find? fun next => next.level ≤ heading.level).map Heading.start).getD
      text.length
    let body := String.ofList (stripChars ((text.take stop).drop heading.stop))
    match stageHeadingId heading.text with
    | some id => (id, body) :: stageBodies text following
    | none => stageBodies text following

/-- The dictionary of some pairs; the last one of a key counts. -/
def dictOf {α : Type} (pairs : List (String × α)) : Dict String α :=
  pairs.foldl (fun found pair => found.put pair.1 pair.2) .empty

/-- `_workflow_stage_bodies` -/
def workflowStageBodies (skillMd : String) : Dict String String :=
  let normalized := unixLines skillMd.toList
  dictOf (stageBodies normalized (findHeadings 0 0 true normalized))

-- A deeper heading belongs to the body, one of the same level ends it.
example : (workflowStageBodies "# Brew\n## [stage_heat] Heat\nBoil.\n### Note\nHot.\r\n## [x] No").get?
    "stage_heat" = some "Boil.\n### Note\nHot." := by decide +kernel

/-! ### What the schema accepts -/

/-- A reference to a source file: `(?:README|SKILL)\.md(?:#.+)?` -/
def isSourceFileRef (ref : String) : Bool :=
  ["README.md", "SKILL.md"].any fun name => name.toList.isPrefixOf ref.toList &&
    match ref.toList.drop name.toList.length with
    | [] => true
    | mark :: anchor => mark = '#' && !anchor.isEmpty && !anchor.contains '\n'

/-- `_require_type_specific_reference` -/
def EvidenceSourceRef.valid (source : EvidenceSourceRef) : Bool :=
  match source.sourceType with
  | .materialAnalysis => source.materialId ≠ "" || source.ref ≠ ""
  | .referenceAsset => source.assetId ≠ "" || source.ref ≠ ""
  | .industryStandard => source.standardRef ≠ "" || source.ref ≠ ""
  | .currentSource => source.ref ≠ "" && isSourceFileRef source.ref
  | .userDescription | .builderInference | .humanConfirmationRequired => source.ref ≠ ""

/-- `BuilderStableId` -/
def isBuilderStableId (id : String) : Bool := isStableId id.toList

def EvidenceUsageTarget.valid (target : EvidenceUsageTarget) : Bool := isBuilderStableId target.targetId

/-- A list with an entry, each of which is valid. -/
def someValid {α : Type} (valid : α → Bool) (items : List α) : Bool := !items.isEmpty && items.all valid

def EvidenceMapItem.valid (item : EvidenceMapItem) : Bool :=
  item.claim ≠ "" && someValid EvidenceSourceRef.valid item.sourceRefs &&
    someValid EvidenceUsageTarget.valid item.usedIn

def MaterialUsageItem.valid (item : MaterialUsageItem) : Bool := item.materialId ≠ "" && item.usage ≠ ""

def IndustryStandardUsageItem.valid (item : IndustryStandardUsageItem) : Bool :=
  item.usage ≠ "" && someValid EvidenceUsageTarget.valid item.usedIn

def SelectedReferenceAsset.valid (asset : SelectedReferenceAsset) : Bool :=
  asset.assetId ≠ "" && asset.materialId ≠ "" && asset.referencePath ≠ "" && asset.reason ≠ "" &&
    someValid isBuilderStableId asset.stageIds

def MissingQuestionItem.valid (item : MissingQuestionItem) : Bool := item.question ≠ "" && item.reason ≠ ""

def SafetyConstraintItem.valid (item : SafetyConstraintItem) : Bool :=
  isBuilderStableId item.constraintId && item.stageIds.all isBuilderStableId && item.constraint ≠ "" &&
    item.riskType ≠ "" && item.requiredAction ≠ ""

def WorkflowStepCandidate.valid (step : WorkflowStepCandidate) : Bool :=
  isBuilderStableId step.stageId && step.title ≠ ""

def ExpectedEvidenceRequirement.valid (requirement : ExpectedEvidenceRequirement) : Bool :=
  isBuilderStableId requirement.requirementId && isBuilderStableId requirement.stageId &&
    requirement.evidenceType ≠ "" && requirement.completionCriteria ≠ ""

/-- The constraints of the candidate's schema. -/
structure BuilderCandidate.Valid (candidate : BuilderCandidate) : Prop where
  directoryTree : candidate.directoryTree ≠ ""
  generationReason : candidate.generationReason ≠ ""
  materialUsage : candidate.materialUsage.all MaterialUsageItem.valid = true
  industryStandardUsage : candidate.industryStandardUsage.all IndustryStandardUsageItem.valid = true
  selectedReferenceAssets :
    candidate.selectedReferenceAssets.all SelectedReferenceAsset.valid = true
  evidenceMap : candidate.evidenceMap.all EvidenceMapItem.valid = true
  missingQuestions : candidate.missingQuestions.all MissingQuestionItem.valid = true
  safetyConstraints : candidate.safetyConstraints.all SafetyConstraintItem.valid = true
  workflowStepCandidates : candidate.workflowStepCandidates.all WorkflowStepCandidate.valid = true
  expectedEvidenceRequirements :
    candidate.expectedEvidenceRequirements.all ExpectedEvidenceRequirement.valid = true

instance (candidate : BuilderCandidate) : Decidable candidate.Valid :=
  decidable_of_iff (candidate.directoryTree ≠ "" ∧ candidate.generationReason ≠ "" ∧
      candidate.materialUsage.all MaterialUsageItem.valid = true ∧
      candidate.industryStandardUsage.all IndustryStandardUsageItem.valid = true ∧
      candidate.selectedReferenceAssets.all SelectedReferenceAsset.valid = true ∧
      candidate.evidenceMap.all EvidenceMapItem.valid = true ∧
      candidate.missingQuestions.all MissingQuestionItem.valid = true ∧
      candidate.safetyConstraints.all SafetyConstraintItem.valid = true ∧
      candidate.workflowStepCandidates.all WorkflowStepCandidate.valid = true ∧
      candidate.expectedEvidenceRequirements.all ExpectedEvidenceRequirement.valid = true)
    (by
      constructor
      · rintro ⟨a, b, c, d, e, f, g, h, i, j⟩
        exact ⟨a, b, c, d, e, f, g, h, i, j⟩
      · rintro ⟨a, b, c, d, e, f, g, h, i, j⟩
        exact ⟨a, b, c, d, e, f, g, h, i, j⟩)

/-- A parser and a dump of one schema: what parses keeps its constraints, and what keeps them is read
back. -/
structure SchemaCodec {Payload : Type} (parse : Payload → Option BuilderCandidate)
    (dump : BuilderCandidate → Payload) : Prop where
  valid : ∀ payload candidate, parse payload = some candidate → candidate.Valid
  round : ∀ candidate : BuilderCandidate, candidate.Valid → parse (dump candidate) = some candidate

/-! ### Targets -/

/-- The types of targets that are inherited. -/
inductive TargetKind where
  | workflowStage | safetyConstraint | expectedEvidence
deriving DecidableEq, Repr

def TargetKind.all : List TargetKind := [workflowStage, safetyConstraint, expectedEvidence]

def TargetKind.targetType : TargetKind → EvidenceTargetType
  | workflowStage => .workflowStage
  | safetyConstraint => .safetyConstraint
  | expectedEvidence => .expectedEvidence

/-- `_target_collection_name` -/
def TargetKind.collectionName : TargetKind → String
  | workflowStage => "workflow_step_candidates"
  | safetyConstraint => "safety_constraints"
  | expectedEvidence => "expected_evidence_requirements"

/-- What became of the targets of a type. -/
structure Classified where
  inherited : List String
  changed : List String
  added : List String
  removed : List String
  /-- An added id with the baseline's id that had the same business value. -/
  renamed : List (String × String)
deriving DecidableEq, Repr

/-- `sorted(ids)` -/
def sortIds (ids : List String) : List String := ids.insertionSort fun a b => keyOrder a b

/-- The loop over the targets of a type, by the business values of their ids. -/
def classify {α : Type} [DecidableEq α] (current baseline : Dict String α) : Classified where
  inherited := (current.entries.filter fun item => baseline.get? item.1 = some item.2).map Prod.fst
  changed := (current.entries.filter fun item =>
    (baseline.get? item.1).any fun old => decide (old ≠ item.2)).map Prod.fst
  added := (current.entries.filter fun item => (baseline.get? item.1).isNone).map Prod.fst
  removed := sortIds (baseline.keys.filter (· ∉ current.keys))
  renamed := (current.entries.filter fun item => (baseline.get? item.1).isNone).filterMap fun item =>
    ((baseline.entries.find? fun old => decide (old.1 ∉ current.keys) && decide (old.2 = item.2)).filter
      (·.1 ≠ "")).map fun old => (item.1, old.1)

/-- The business values of workflow stages: their titles and bodies. -/
def stageValues (candidate : BuilderCandidate) : Dict String (String × String) :=
  let bodies := workflowStageBodies ((candidate.files.get? "SKILL.md").getD "")
  dictOf (candidate.workflowStepCandidates.map fun item =>
    (item.stageId, item.title, (bodies.get? item.stageId).getD ""))

/-- The business values of safety constraints: all but the id. -/
def constraintValues (candidate : BuilderCandidate) : Dict String SafetyConstraintItem :=
  dictOf (candidate.safetyConstraints.map fun item =>
    (item.constraintId, { item with constraintId := "" }))

/-- The business values of evidence requirements: all but the id. -/
def requirementValues (candidate : BuilderCandidate) : Dict String ExpectedEvidenceRequirement :=
  dictOf (candidate.expectedEvidenceRequirements.map fun item =>
    (item.requirementId, { item with requirementId := "" }))

def classified (candidate baseline : BuilderCandidate) : TargetKind → Classified
  | .workflowStage => classify (stageValues candidate) (stageValues baseline)
  | .safetyConstraint => classify (constraintValues candidate) (constraintValues baseline)
  | .expectedEvidence => classify (requirementValues candidate) (requirementValues baseline)

/-! ### Diagnostics -/

structure BuilderCandidateValidationError where
  message : String
  diagnostics : List Diagnostic
deriving Repr

def renameDiagnostic (kind : TargetKind) (renamed : String × String) : Diagnostic :=
  { diagnostic (kind.collectionName ++ "." ++ renamed.1) "stable_id_changed"
      ("未变化的 " ++ kind.targetType.text ++ " 不得重命名稳定 ID；请恢复原 ID：" ++ renamed.2) with
    example? := .str renamed.2 }

/-- The key diagnostics are told apart and ordered by. -/
def diagnosticKey (d : Diagnostic) : String × String × String :=
  (if d.path = "" then "candidate" else d.path,
    if d.code = "" then "invalid_candidate" else d.code,
    if d.message = "" then "候选字段无效。" else d.message)

/-- The order of triples of texts. -/
def diagnosticOrder (a b : Diagnostic) : Bool :=
  let (path, code, message) := diagnosticKey a
  let (path', code', message') := diagnosticKey b
  if path ≠ path' then keyOrder path path'
  else if code ≠ code' then keyOrder code code' else keyOrder message message'

/-- `_sort_diagnostics`: the first diagnostic of each key, in the order of the keys. -/
def sortDiagnostics (diagnostics : List Diagnostic) : List Diagnostic :=
  let unique := diagnostics.foldl (fun found d =>
    if found.any fun other => diagnosticKey other = diagnosticKey d then found else found ++ [d]) []
  unique.insertionSort fun a b => diagnosticOrder a b

/-- `_diagnostics_message` -/
def diagnosticsMessage (diagnostics : List Diagnostic) : String :=
  match diagnostics with
  | [] => "builder candidate 校验失败。"
  | first :: _ => "builder candidate 校验失败（共 " ++ toString diagnostics.length ++ " 项）：" ++
      (diagnosticKey first).1 ++ "：" ++ (diagnosticKey first).2.2

/-! ### Evidence -/

/-- `_evidence_item_has_supported_source` -/
def hasSupportedSource (item : EvidenceMapItem) : Bool :=
  item.sourceRefs.any fun source => source.sourceType ∈ SUPPORTED_REQUIRED_EVIDENCE_SOURCE_TYPES

/-- The targets that some evidence has a verifiable source for. -/
def supportedTargets (evidence : List EvidenceMapItem) : List EvidenceUsageTarget :=
  (evidence.filter hasSupportedSource).flatMap EvidenceMapItem.usedIn

def standardTargets (standards : List IndustryStandardUsageItem) : List EvidenceUsageTarget :=
  standards.flatMap IndustryStandardUsageItem.usedIn

/-- The targets whose id and business value are those of the baseline. -/
def inheritedTargets (candidate baseline : BuilderCandidate) : List EvidenceUsageTarget :=
  TargetKind.all.flatMap fun kind =>
    (classified candidate baseline kind).inherited.map fun id => ⟨kind.targetType, id⟩

/-- The items of the baseline that are used for missing targets, and for these only. -/
def inheritItems {ι : Type} (usedIn : ι → List EvidenceUsageTarget)
    (withUsedIn : ι → List EvidenceUsageTarget → ι) (missing : EvidenceUsageTarget → Bool)
    (items : List ι) : List ι :=
  items.filterMap fun item =>
    let selected := (usedIn item).filter missing
    if selected = [] then none else some (withUsedIn item selected)

def inheritEvidence (missing : EvidenceUsageTarget → Bool) (evidence : List EvidenceMapItem) :
    List EvidenceMapItem :=
  inheritItems EvidenceMapItem.usedIn (fun item targets => { item with usedIn := targets }) missing
    evidence

def inheritStandards (missing : EvidenceUsageTarget → Bool)
    (standards : List IndustryStandardUsageItem) : List IndustryStandardUsageItem :=
  inheritItems IndustryStandardUsageItem.usedIn (fun item targets => { item with usedIn := targets })
    missing standards

/-- Inherited, and not in a list of targets. -/
def missingFrom (candidate baseline : BuilderCandidate) (covered : List EvidenceUsageTarget)
    (target : EvidenceUsageTarget) : Bool :=
  decide (target ∈ inheritedTargets candidate baseline) && decide (target ∉ covered)

/-! ### Reconciliation -/

/-- The generation a candidate is a revision of. -/
structure BaselineRef where
  generationId : String
  commitSha : String
  candidateHash : String
deriving DecidableEq, Repr

structure RevisionProvenance where
  baseline : BaselineRef
  inheritedTargetIds : TargetKind → List String
  changedTargetIds : TargetKind → List String
  addedTargetIds : TargetKind → List String
  removedTargetIds : TargetKind → List String
  inheritedEvidenceCount : Nat
  inheritedIndustryStandardCount : Nat

/-- `reconcile_builder_candidate` on parsed candidates. -/
def reconcile (candidate baseline : BuilderCandidate) (ref : BaselineRef) :
    Except BuilderCandidateValidationError (BuilderCandidate × RevisionProvenance) :=
  let renames := TargetKind.all.flatMap fun kind =>
    (classified candidate baseline kind).renamed.map (renameDiagnostic kind)
  if renames ≠ [] then
    let diagnostics := sortDiagnostics renames
    .error ⟨diagnosticsMessage diagnostics, diagnostics⟩
  else
    let evidence := inheritEvidence
      (missingFrom candidate baseline (supportedTargets candidate.evidenceMap)) baseline.evidenceMap
    let standards := inheritStandards
      (missingFrom candidate baseline (standardTargets candidate.industryStandardUsage))
      baseline.industryStandardUsage
    .ok ({ candidate with
        evidenceMap := candidate.evidenceMap ++ evidence
        industryStandardUsage := candidate.industryStandardUsage ++ standards },
      { baseline := ref
        inheritedTargetIds := fun kind => sortIds (classified candidate baseline kind).inherited
        changedTargetIds := fun kind => sortIds (classified candidate baseline kind).changed
        addedTargetIds := fun kind => sortIds (classified candidate baseline kind).added
        removedTargetIds := fun kind => (classified candidate baseline kind).removed
        inheritedEvidenceCount := (evidence.map fun item => item.usedIn.length).sum
        inheritedIndustryStandardCount := (standards.map fun item => item.usedIn.length).sum })

section
variable {Payload : Type} (parse : Payload → Option BuilderCandidate)
  (dump : BuilderCandidate → Payload)

/-- `reconcile_builder_candidate`; what does not parse is left to the validation. -/
def reconcileBuilderCandidate (payload baselinePayload : Payload) (ref : BaselineRef) :
    Except BuilderCandidateValidationError (Payload × Option RevisionProvenance) :=
  match parse payload, parse baselinePayload with
  | some candidate, some baseline => match reconcile candidate baseline ref with
    | .ok (result, provenance) => .ok (dump result, some provenance)
    | .error error => .error error
  | _, _ => .ok (payload, none)

end

/-! ### The check of the coverage -/

/-- A target that verifiable evidence is required for. -/
structure RequiredTarget where
  fieldName : String
  index : Nat
  target : EvidenceUsageTarget
  label : String
deriving DecidableEq, Repr

def requiredTargets (candidate : BuilderCandidate) : List RequiredTarget :=
  (candidate.workflowStepCandidates.zipIdx.map fun (item, index) =>
    ⟨"workflow_step_candidates", index, ⟨.workflowStage, item.stageId⟩, "工作流阶段"⟩) ++
  (candidate.safetyConstraints.zipIdx.map fun (item, index) =>
    ⟨"safety_constraints", index, ⟨.safetyConstraint, item.constraintId⟩, "安全约束"⟩) ++
  (candidate.expectedEvidenceRequirements.zipIdx.map fun (item, index) =>
    ⟨"expected_evidence_requirements", index, ⟨.expectedEvidence, item.requirementId⟩, "预期证据要求"⟩)

/-- A target as an example shows it. -/
def EvidenceUsageTarget.toJson (target : EvidenceUsageTarget) : Json :=
  .obj [("target_type", .str target.targetType.text), ("target_id", .str target.targetId)]

/-- What is reported of a required target without verifiable evidence. -/
def coverageDiagnostic (evidence : List EvidenceMapItem) (required : RequiredTarget) : Diagnostic :=
  let target := required.target
  match evidence.zipIdx.find? fun item => target ∈ item.1.usedIn with
  | some (item, index) =>
    let sources := sortIds (unique (item.sourceRefs.map fun source => source.sourceType.text))
    { path := "evidence_map." ++ toString index ++ ".source_refs"
      code := "unsupported_evidence_source_for_required_target"
      message := required.label ++ " " ++ target.targetId ++ " 仅由不可验证来源支撑：[" ++
        join ", " (sources.map fun source => "'" ++ source ++ "'") ++
        "]；强制目标必须引用用户确认、素材分析、参考资产或可追溯行业标准。"
      allowedValues := sortIds (SUPPORTED_REQUIRED_EVIDENCE_SOURCE_TYPES.map EvidenceSourceType.text)
      example? := .obj [("source_refs", .arr [.obj [("source_type", .str "material_analysis"),
          ("material_id", .str "material-1")]]),
        ("used_in", .arr [target.toJson])] }
  | none =>
    { diagnostic (required.fieldName ++ "." ++ toString required.index) "missing_evidence_coverage"
        (required.label ++ "缺少可验证 evidence_map.used_in 覆盖：" ++ target.targetId) with
      example? := target.toJson }

/-- `_validate_evidence_coverage` -/
def validateEvidenceCoverage (candidate : BuilderCandidate) : List Diagnostic :=
  ((requiredTargets candidate).filter fun required =>
    required.target ∉ supportedTargets candidate.evidenceMap).map
      (coverageDiagnostic candidate.evidenceMap)

/-! ### The targets are classified once -/

theorem mem_dictOf {α : Type} {pairs : List (String × α)} {id : String} :
    id ∈ (dictOf pairs).keys ↔ id ∈ pairs.map Prod.fst := by
  induction pairs using List.reverseRecOn with
  | nil => simp [dictOf, Dict.keys, Dict.empty]
  | append_singleton pairs last ih =>
    rw [dictOf, List.foldl_append, List.foldl_cons, List.foldl_nil, Dict.mem_keys_put, ← dictOf, ih,
      List.map_append, List.mem_append, List.map_singleton, List.mem_singleton]
    exact or_comm

/-- The ids of a candidate's targets of a type. -/
def BuilderCandidate.targetIds (candidate : BuilderCandidate) : TargetKind → List String
  | .workflowStage => candidate.workflowStepCandidates.map WorkflowStepCandidate.stageId
  | .safetyConstraint => candidate.safetyConstraints.map SafetyConstraintItem.constraintId
  | .expectedEvidence =>
    candidate.expectedEvidenceRequirements.map ExpectedEvidenceRequirement.requirementId

/-- **A classification is a partition** of the current ids. -/
theorem classify_perm {α : Type} [DecidableEq α] (current baseline : Dict String α) :
    ((classify current baseline).inherited ++ (classify current baseline).changed ++
      (classify current baseline).added).Perm current.keys := by
  simp only [classify, Dict.keys, ← List.map_append]
  apply List.Perm.map
  induction current.entries with
  | nil => exact .nil
  | cons item rest ih =>
    simp only [List.filter_cons]
    cases old : baseline.get? item.1 with
    | none => simpa using (List.perm_middle.trans (ih.cons item))
    | some value =>
      by_cases same : value = item.2
      · simpa [same] using ih.cons item
      · simp only [Option.some.injEq, same, decide_false, Bool.false_eq_true, if_false,
          Option.any_some, ne_eq, not_false_eq_true, decide_true, if_true, Option.isNone_some,
          List.append_assoc, List.cons_append]
        rw [List.append_assoc] at ih
        exact List.perm_middle.trans (ih.cons item)

theorem mem_sortIds {ids : List String} {id : String} : id ∈ sortIds ids ↔ id ∈ ids :=
  List.mem_insertionSort _

theorem mem_removed {α : Type} [DecidableEq α] {current baseline : Dict String α} {id : String} :
    id ∈ (classify current baseline).removed ↔ id ∈ baseline.keys ∧ id ∉ current.keys := by
  rw [classify, mem_sortIds, List.mem_filter, decide_eq_true_eq]

/-- The lists of a classification, as they stand in the provenance of a revision. -/
structure Partitions (current baseline inherited changed added removed : List String) : Prop where
  distinct : (inherited ++ changed ++ added).Nodup
  covers : ∀ id, id ∈ inherited ++ changed ++ added ↔ id ∈ current
  removed : ∀ id, id ∈ removed ↔ id ∈ baseline ∧ id ∉ current

theorem classify_partitions {α : Type} [DecidableEq α] {current baseline : Dict String α}
    {ids baselineIds : List String} (isCurrent : ∀ id, id ∈ current.keys ↔ id ∈ ids)
    (isBaseline : ∀ id, id ∈ baseline.keys ↔ id ∈ baselineIds) :
    Partitions ids baselineIds (sortIds (classify current baseline).inherited)
      (sortIds (classify current baseline).changed) (sortIds (classify current baseline).added)
      (classify current baseline).removed := by
  have sorted : (sortIds (classify current baseline).inherited ++
      sortIds (classify current baseline).changed ++
      sortIds (classify current baseline).added).Perm current.keys :=
    (((List.perm_insertionSort _ _).append (List.perm_insertionSort _ _)).append
      (List.perm_insertionSort _ _)).trans (classify_perm current baseline)
  refine ⟨sorted.nodup_iff.mpr current.distinct, fun id => ?_, fun id => ?_⟩
  · rw [sorted.mem_iff, isCurrent]
  · rw [mem_removed, isCurrent, isBaseline]

theorem classified_partitions (candidate baseline : BuilderCandidate) (kind : TargetKind) :
    Partitions (candidate.targetIds kind) (baseline.targetIds kind)
      (sortIds (classified candidate baseline kind).inherited)
      (sortIds (classified candidate baseline kind).changed)
      (sortIds (classified candidate baseline kind).added)
      (classified candidate baseline kind).removed := by
  cases kind with
  | workflowStage =>
    apply classify_partitions <;> intro id <;> rw [stageValues, mem_dictOf, List.map_map] <;> rfl
  | safetyConstraint =>
    apply classify_partitions <;> intro id <;> rw [constraintValues, mem_dictOf, List.map_map] <;> rfl
  | expectedEvidence =>
    apply classify_partitions <;> intro id <;> rw [requirementValues, mem_dictOf, List.map_map] <;> rfl

theorem mem_inheritedTargets {candidate baseline : BuilderCandidate} {target : EvidenceUsageTarget} :
    target ∈ inheritedTargets candidate baseline ↔ ∃ kind : TargetKind,
      target.targetType = kind.targetType ∧
        target.targetId ∈ (classified candidate baseline kind).inherited := by
  rw [inheritedTargets, List.mem_flatMap]
  constructor
  · rintro ⟨kind, -, isIn⟩
    obtain ⟨id, isId, rfl⟩ := List.mem_map.mp isIn
    exact ⟨kind, rfl, isId⟩
  · rintro ⟨kind, isType, isId⟩
    refine ⟨kind, by cases kind <;> decide, List.mem_map.mpr ⟨target.targetId, isId, ?_⟩⟩
    rw [← isType]

/-- An inherited id is one of the baseline's. -/
theorem inherited_in_baseline {α : Type} [DecidableEq α] {current baseline : Dict String α}
    {id : String} (inherited : id ∈ (classify current baseline).inherited) : id ∈ baseline.keys := by
  obtain ⟨item, isIn, rfl⟩ := List.mem_map.mp inherited
  exact Dict.mem_keys.mpr ⟨item.2, of_decide_eq_true (List.mem_filter.mp isIn).2⟩

theorem classified_in_baseline {candidate baseline : BuilderCandidate} {kind : TargetKind} {id : String}
    (inherited : id ∈ (classified candidate baseline kind).inherited) : id ∈ baseline.targetIds kind := by
  cases kind with
  | workflowStage =>
    have known := inherited_in_baseline inherited
    rwa [stageValues, mem_dictOf, List.map_map] at known
  | safetyConstraint =>
    have known := inherited_in_baseline inherited
    rwa [constraintValues, mem_dictOf, List.map_map] at known
  | expectedEvidence =>
    have known := inherited_in_baseline inherited
    rwa [requirementValues, mem_dictOf, List.map_map] at known

/-! ### What is taken over -/

section
variable {ι : Type} {usedIn : ι → List EvidenceUsageTarget}
  {withUsedIn : ι → List EvidenceUsageTarget → ι} {missing : EvidenceUsageTarget → Bool} {items : List ι}

theorem mem_inheritItems {inherited : ι} : inherited ∈ inheritItems usedIn withUsedIn missing items ↔
    ∃ item ∈ items, (usedIn item).filter missing ≠ [] ∧
      inherited = withUsedIn item ((usedIn item).filter missing) := by
  rw [inheritItems, List.mem_filterMap]
  constructor
  · rintro ⟨item, isIn, selects⟩
    dsimp only at selects
    split at selects
    · cases selects
    · rename_i some
      exact ⟨item, isIn, some, (Option.some.inj selects).symm⟩
  · rintro ⟨item, isIn, some, rfl⟩
    exact ⟨item, isIn, if_neg some⟩

/-- The targets of what is taken over are the missing ones that the baseline names. -/
theorem mem_inherited_targets (lawful : ∀ item targets, usedIn (withUsedIn item targets) = targets)
    {target : EvidenceUsageTarget} :
    target ∈ (inheritItems usedIn withUsedIn missing items).flatMap usedIn ↔
      missing target = true ∧ target ∈ items.flatMap usedIn := by
  simp only [List.mem_flatMap]
  constructor
  · rintro ⟨inherited, isIn, isTarget⟩
    obtain ⟨item, isItem, -, rfl⟩ := mem_inheritItems.mp isIn
    rw [lawful] at isTarget
    exact ⟨(List.mem_filter.mp isTarget).2, item, isItem, (List.mem_filter.mp isTarget).1⟩
  · rintro ⟨isMissing, item, isItem, isTarget⟩
    have selected : target ∈ (usedIn item).filter missing := List.mem_filter.mpr ⟨isTarget, isMissing⟩
    refine ⟨_, mem_inheritItems.mpr ⟨item, isItem, List.ne_nil_of_mem selected, rfl⟩, ?_⟩
    rw [lawful]
    exact selected

/-- Nothing is taken over iff no target of the baseline's items is missing. -/
theorem inherit_nothing (lawful : ∀ item targets, usedIn (withUsedIn item targets) = targets) :
    inheritItems usedIn withUsedIn missing items = [] ↔
      ∀ target ∈ items.flatMap usedIn, missing target = false := by
  constructor
  · intro nothing target isTarget
    by_contra isMissing
    have taken : target ∈ (inheritItems usedIn withUsedIn missing items).flatMap usedIn :=
      (mem_inherited_targets lawful).mpr ⟨Bool.not_eq_false _ ▸ isMissing, isTarget⟩
    rw [nothing] at taken
    cases taken
  · intro none
    refine List.eq_nil_iff_forall_not_mem.mpr fun inherited isIn => ?_
    obtain ⟨item, isItem, some, -⟩ := mem_inheritItems.mp isIn
    obtain ⟨target, selected⟩ := List.exists_mem_of_ne_nil _ some
    have isMissing := (List.mem_filter.mp selected).2
    rw [none target (List.mem_flatMap.mpr ⟨item, isItem, (List.mem_filter.mp selected).1⟩)] at isMissing
    cases isMissing

end

theorem mem_supportedTargets {evidence : List EvidenceMapItem} {target : EvidenceUsageTarget} :
    target ∈ supportedTargets evidence ↔
      ∃ item ∈ evidence, hasSupportedSource item = true ∧ target ∈ item.usedIn := by
  simp only [supportedTargets, List.mem_flatMap, List.mem_filter, and_assoc]

/-- The verifiable evidence that is taken over covers the missing targets the baseline covers. -/
theorem mem_supported_inherited {missing : EvidenceUsageTarget → Bool} {evidence : List EvidenceMapItem}
    {target : EvidenceUsageTarget} : target ∈ supportedTargets (inheritEvidence missing evidence) ↔
      missing target = true ∧ target ∈ supportedTargets evidence := by
  rw [mem_supportedTargets, mem_supportedTargets]
  constructor
  · rintro ⟨inherited, isIn, supported, isTarget⟩
    obtain ⟨item, isItem, -, rfl⟩ := mem_inheritItems.mp isIn
    have selected := List.mem_filter.mp isTarget
    exact ⟨selected.2, item, isItem, supported, selected.1⟩
  · rintro ⟨isMissing, item, isItem, supported, isTarget⟩
    have selected : target ∈ item.usedIn.filter missing := List.mem_filter.mpr ⟨isTarget, isMissing⟩
    exact ⟨{ item with usedIn := item.usedIn.filter missing },
      mem_inheritItems.mpr ⟨item, isItem, List.ne_nil_of_mem selected, rfl⟩, supported, selected⟩

theorem supported_append {xs ys : List EvidenceMapItem} {target : EvidenceUsageTarget} :
    target ∈ supportedTargets (xs ++ ys) ↔ target ∈ supportedTargets xs ∨ target ∈ supportedTargets ys := by
  rw [supportedTargets, List.filter_append, List.flatMap_append, List.mem_append]
  rfl

variable {candidate baseline : BuilderCandidate} {ref : BaselineRef}

theorem missing_iff {covered : List EvidenceUsageTarget} {target : EvidenceUsageTarget} :
    missingFrom candidate baseline covered target = true ↔
      target ∈ inheritedTargets candidate baseline ∧ target ∉ covered := by
  rw [missingFrom, Bool.and_eq_true, decide_eq_true_eq, decide_eq_true_eq]

/-- The candidate with what it inherits. -/
def withInherited (candidate baseline : BuilderCandidate) : BuilderCandidate :=
  { candidate with
    evidenceMap := candidate.evidenceMap ++ inheritEvidence
      (missingFrom candidate baseline (supportedTargets candidate.evidenceMap)) baseline.evidenceMap
    industryStandardUsage := candidate.industryStandardUsage ++ inheritStandards
      (missingFrom candidate baseline (standardTargets candidate.industryStandardUsage))
      baseline.industryStandardUsage }

/-- The baseline has verifiable evidence for each inherited target that it has any evidence for, unless
the candidate covers the target itself. -/
def Backed (candidate baseline : BuilderCandidate) : Prop :=
  ∀ target ∈ inheritedTargets candidate baseline, target ∉ supportedTargets candidate.evidenceMap →
    target ∈ baseline.evidenceMap.flatMap EvidenceMapItem.usedIn →
    target ∈ supportedTargets baseline.evidenceMap

/-- **What is left to inherit** after a reconciliation. -/
theorem inherits_again : withInherited (withInherited candidate baseline) baseline =
    withInherited candidate baseline ↔ Backed candidate baseline := by
  have noStandards : inheritStandards (missingFrom candidate baseline
      (standardTargets (withInherited candidate baseline).industryStandardUsage))
      baseline.industryStandardUsage = [] := by
    refine (inherit_nothing fun _ _ => rfl).mpr fun target isTarget => ?_
    rw [← Bool.not_eq_true, missing_iff]
    rintro ⟨isInherited, notCovered⟩
    rw [withInherited, standardTargets, List.flatMap_append, List.mem_append, not_or] at notCovered
    exact notCovered.2 ((mem_inherited_targets fun _ _ => rfl).mpr
      ⟨missing_iff.mpr ⟨isInherited, notCovered.1⟩, isTarget⟩)
  have sameEvidence : withInherited (withInherited candidate baseline) baseline =
      withInherited candidate baseline ↔ inheritEvidence (missingFrom candidate baseline
        (supportedTargets (withInherited candidate baseline).evidenceMap)) baseline.evidenceMap = [] := by
    constructor
    · intro same
      have evidence := congrArg BuilderCandidate.evidenceMap same
      exact List.append_right_eq_self.mp evidence
    · intro nothing
      show BuilderCandidate.mk _ _ _ _ _ (_ ++ inheritStandards (missingFrom candidate baseline
        (standardTargets (withInherited candidate baseline).industryStandardUsage))
          baseline.industryStandardUsage) _ (_ ++ inheritEvidence (missingFrom candidate baseline
        (supportedTargets (withInherited candidate baseline).evidenceMap)) baseline.evidenceMap)
          _ _ _ _ = _
      rw [noStandards, nothing, List.append_nil, List.append_nil]
  rw [sameEvidence, inheritEvidence, inherit_nothing fun _ _ => rfl]
  have covered (target : EvidenceUsageTarget) :
      target ∈ supportedTargets (withInherited candidate baseline).evidenceMap ↔
        target ∈ supportedTargets candidate.evidenceMap ∨
          target ∈ inheritedTargets candidate baseline ∧
            target ∈ supportedTargets baseline.evidenceMap := by
    rw [withInherited, supported_append, mem_supported_inherited, missing_iff]
    by_cases own : target ∈ supportedTargets candidate.evidenceMap <;> simp [own]
  constructor
  · intro none target isInherited notOwn isTarget
    have found := none target isTarget
    rw [← Bool.not_eq_true, missing_iff, covered] at found
    by_contra notBacked
    exact found ⟨isInherited, fun either => either.elim notOwn fun both => notBacked both.2⟩
  · intro backed target isTarget
    rw [← Bool.not_eq_true, missing_iff, covered, not_or]
    rintro ⟨isInherited, notOwn, notBoth⟩
    exact notBoth ⟨isInherited, backed target isInherited notOwn isTarget⟩

/-- What is taken over keeps the constraints of the schema. -/
theorem inherit_valid {ι : Type} {usedIn : ι → List EvidenceUsageTarget}
    {withUsedIn : ι → List EvidenceUsageTarget → ι} {missing : EvidenceUsageTarget → Bool}
    {items : List ι} {valid : ι → Bool}
    (narrows : ∀ item targets, valid item = true → someValid EvidenceUsageTarget.valid targets = true →
      valid (withUsedIn item targets) = true)
    (names : ∀ item, valid item = true → someValid EvidenceUsageTarget.valid (usedIn item) = true)
    (allValid : items.all valid = true) :
    (inheritItems usedIn withUsedIn missing items).all valid = true := by
  rw [List.all_eq_true] at allValid ⊢
  intro inherited isIn
  obtain ⟨item, isItem, some, rfl⟩ := mem_inheritItems.mp isIn
  have named := names item (allValid item isItem)
  rw [someValid, Bool.and_eq_true, List.all_eq_true] at named
  refine narrows item _ (allValid item isItem) ?_
  rw [someValid, Bool.and_eq_true, List.all_eq_true]
  exact ⟨by simpa using some, fun target isTarget => named.2 target (List.mem_filter.mp isTarget).1⟩

/-- **The schema's constraints** hold of the reconciled candidate. -/
theorem withInherited_valid (isCandidate : candidate.Valid) (isBaseline : baseline.Valid) :
    (withInherited candidate baseline).Valid where
  directoryTree := isCandidate.directoryTree
  generationReason := isCandidate.generationReason
  materialUsage := isCandidate.materialUsage
  industryStandardUsage := by
    rw [withInherited, List.all_append, Bool.and_eq_true]
    refine ⟨isCandidate.industryStandardUsage, inherit_valid (fun item targets isItem some => ?_)
      (fun item isItem => ?_) isBaseline.industryStandardUsage⟩
    · rw [IndustryStandardUsageItem.valid, Bool.and_eq_true] at isItem ⊢
      exact ⟨isItem.1, some⟩
    · rw [IndustryStandardUsageItem.valid, Bool.and_eq_true] at isItem
      exact isItem.2
  selectedReferenceAssets := isCandidate.selectedReferenceAssets
  evidenceMap := by
    rw [withInherited, List.all_append, Bool.and_eq_true]
    refine ⟨isCandidate.evidenceMap, inherit_valid (fun item targets isItem some => ?_)
      (fun item isItem => ?_) isBaseline.evidenceMap⟩
    · rw [EvidenceMapItem.valid, Bool.and_eq_true] at isItem ⊢
      exact ⟨isItem.1, some⟩
    · rw [EvidenceMapItem.valid, Bool.and_eq_true] at isItem
      exact isItem.2
  missingQuestions := isCandidate.missingQuestions
  safetyConstraints := isCandidate.safetyConstraints
  workflowStepCandidates := isCandidate.workflowStepCandidates
  expectedEvidenceRequirements := isCandidate.expectedEvidenceRequirements

/-! ### Coverage -/

theorem coverage_complete (complete : validateEvidenceCoverage candidate = []) (kind : TargetKind)
    {id : String} (isIn : id ∈ candidate.targetIds kind) :
    (⟨kind.targetType, id⟩ : EvidenceUsageTarget) ∈ supportedTargets candidate.evidenceMap := by
  have required : ∃ required ∈ requiredTargets candidate, required.target = ⟨kind.targetType, id⟩ := by
    simp only [requiredTargets, List.mem_append, List.mem_map, Prod.exists]
    cases kind with
    | workflowStage =>
      obtain ⟨item, isItem, rfl⟩ := List.mem_map.mp isIn
      obtain ⟨index, isAt⟩ := List.getElem?_of_mem isItem
      exact ⟨_, .inl (.inl ⟨item, index, List.mem_zipIdx_iff_getElem?.mpr isAt, rfl⟩), rfl⟩
    | safetyConstraint =>
      obtain ⟨item, isItem, rfl⟩ := List.mem_map.mp isIn
      obtain ⟨index, isAt⟩ := List.getElem?_of_mem isItem
      exact ⟨_, .inl (.inr ⟨item, index, List.mem_zipIdx_iff_getElem?.mpr isAt, rfl⟩), rfl⟩
    | expectedEvidence =>
      obtain ⟨item, isItem, rfl⟩ := List.mem_map.mp isIn
      obtain ⟨index, isAt⟩ := List.getElem?_of_mem isItem
      exact ⟨_, .inr ⟨item, index, List.mem_zipIdx_iff_getElem?.mpr isAt, rfl⟩, rfl⟩
  obtain ⟨required, isRequired, isTarget⟩ := required
  by_contra uncovered
  have reported : required ∈ (requiredTargets candidate).filter fun required =>
      required.target ∉ supportedTargets candidate.evidenceMap :=
    List.mem_filter.mpr ⟨isRequired, decide_eq_true (isTarget ▸ uncovered)⟩
  rw [List.map_eq_nil_iff.mp complete] at reported
  cases reported

/-- A baseline whose coverage is complete backs every candidate. -/
theorem backed_of_complete (complete : validateEvidenceCoverage baseline = []) :
    Backed candidate baseline := by
  intro target isInherited _ _
  obtain ⟨kind, isType, isId⟩ := mem_inheritedTargets.mp isInherited
  have covered := coverage_complete complete kind (classified_in_baseline isId)
  rwa [← isType] at covered

/-- Then every inherited target is covered after the reconciliation. -/
theorem inherited_covered (complete : validateEvidenceCoverage baseline = []) (kind : TargetKind)
    {id : String} (inherited : id ∈ (classified candidate baseline kind).inherited) :
    (⟨kind.targetType, id⟩ : EvidenceUsageTarget) ∈
      supportedTargets (withInherited candidate baseline).evidenceMap := by
  have isInherited : (⟨kind.targetType, id⟩ : EvidenceUsageTarget) ∈
      inheritedTargets candidate baseline := mem_inheritedTargets.mpr ⟨kind, rfl, inherited⟩
  rw [withInherited, supported_append, mem_supported_inherited, missing_iff]
  by_cases own : (⟨kind.targetType, id⟩ : EvidenceUsageTarget) ∈ supportedTargets candidate.evidenceMap
  · exact .inl own
  · exact .inr ⟨⟨isInherited, own⟩, coverage_complete complete kind (classified_in_baseline inherited)⟩

/-! ### The whole operation -/

/-- **A reconciliation** succeeds where no unchanged target has a new id. -/
theorem reconcile_spec (candidate baseline : BuilderCandidate) (ref : BaselineRef) :
    (∃ provenance, reconcile candidate baseline ref = .ok (withInherited candidate baseline, provenance) ∧
      ∀ kind, provenance.inheritedTargetIds kind = sortIds (classified candidate baseline kind).inherited ∧
        provenance.changedTargetIds kind = sortIds (classified candidate baseline kind).changed ∧
        provenance.addedTargetIds kind = sortIds (classified candidate baseline kind).added ∧
        provenance.removedTargetIds kind = (classified candidate baseline kind).removed) ∧
      (TargetKind.all.flatMap fun kind =>
        (classified candidate baseline kind).renamed.map (renameDiagnostic kind)) = [] ∨
    (∃ error, reconcile candidate baseline ref = .error error) ∧
      (TargetKind.all.flatMap fun kind =>
        (classified candidate baseline kind).renamed.map (renameDiagnostic kind)) ≠ [] := by
  unfold reconcile
  dsimp only
  split
  · rename_i renames
    exact .inr ⟨⟨_, rfl⟩, renames⟩
  · rename_i noRenames
    exact .inl ⟨⟨_, rfl, fun kind => ⟨rfl, rfl, rfl, rfl⟩⟩, not_not.mp noRenames⟩

section
variable {Payload : Type} {parse : Payload → Option BuilderCandidate}
  {dump : BuilderCandidate → Payload}

theorem reconcile_parsed {payload baselinePayload : Payload} {result : Payload}
    {provenance : Option RevisionProvenance} (isCandidate : parse payload = some candidate)
    (isBaseline : parse baselinePayload = some baseline)
    (accepted : reconcileBuilderCandidate parse dump payload baselinePayload ref =
      .ok (result, provenance)) :
    result = dump (withInherited candidate baseline) ∧
      (TargetKind.all.flatMap fun kind =>
        (classified candidate baseline kind).renamed.map (renameDiagnostic kind)) = [] ∧
      ∃ found, provenance = some found ∧
        ∀ kind, found.inheritedTargetIds kind = sortIds (classified candidate baseline kind).inherited ∧
          found.changedTargetIds kind = sortIds (classified candidate baseline kind).changed ∧
          found.addedTargetIds kind = sortIds (classified candidate baseline kind).added ∧
          found.removedTargetIds kind = (classified candidate baseline kind).removed := by
  rw [reconcileBuilderCandidate, isCandidate, isBaseline] at accepted
  dsimp only at accepted
  rcases reconcile_spec candidate baseline ref with
    ⟨⟨found, isFound, lists⟩, noRenames⟩ | ⟨⟨error, isError⟩, -⟩
  · rw [isFound] at accepted
    cases accepted
    exact ⟨rfl, noRenames, found, rfl, lists⟩
  · rw [isError] at accepted
    cases accepted

/-- **Reconciling again** changes nothing iff the baseline backs the candidate. -/
theorem reconcile_again (codec : SchemaCodec parse dump)
    {payload baselinePayload : Payload} {result : Payload} {provenance : Option RevisionProvenance}
    (isCandidate : parse payload = some candidate) (isBaseline : parse baselinePayload = some baseline)
    (accepted : reconcileBuilderCandidate parse dump payload baselinePayload ref =
      .ok (result, provenance)) :
    (∃ later, reconcileBuilderCandidate parse dump result baselinePayload ref = .ok (result, later)) ↔
      Backed candidate baseline := by
  obtain ⟨rfl, noRenames, -⟩ := reconcile_parsed isCandidate isBaseline accepted
  have baselineValid := codec.valid _ _ isBaseline
  have valid := withInherited_valid (codec.valid _ _ isCandidate) baselineValid
  rw [← inherits_again]
  constructor
  · rintro ⟨later, again⟩
    have same := (reconcile_parsed (codec.round _ valid) isBaseline again).1
    have parsed := congrArg parse same
    rw [codec.round _ valid, codec.round _ (withInherited_valid valid baselineValid)] at parsed
    exact (Option.some.inj parsed).symm
  · intro same
    rw [reconcileBuilderCandidate, codec.round _ valid, isBaseline]
    dsimp only
    rcases reconcile_spec (withInherited candidate baseline) baseline ref with
      ⟨⟨found, isFound, -⟩, -⟩ | ⟨-, renames⟩
    · rw [isFound, same]
      exact ⟨_, rfl⟩
    · exact absurd noRenames renames

/-- **A reconciled candidate**: its target ids are partitioned, its own evidence comes first, what is
added is about inherited targets it has no verifiable evidence for. If the coverage of the baseline is
complete, every inherited target is covered, and reconciling again changes nothing. -/
theorem reconciled (codec : SchemaCodec parse dump)
    {payload baselinePayload : Payload} {result : Payload} {provenance : Option RevisionProvenance}
    (isCandidate : parse payload = some candidate) (isBaseline : parse baselinePayload = some baseline)
    (accepted : reconcileBuilderCandidate parse dump payload baselinePayload ref =
      .ok (result, provenance)) :
    ∃ revised found, parse result = some revised ∧ provenance = some found ∧
      (∀ kind, Partitions (candidate.targetIds kind) (baseline.targetIds kind)
        (found.inheritedTargetIds kind) (found.changedTargetIds kind) (found.addedTargetIds kind)
        (found.removedTargetIds kind)) ∧
      (∃ taken, revised.evidenceMap = candidate.evidenceMap ++ taken ∧
        ∀ item ∈ taken, ∀ target ∈ item.usedIn,
          target ∉ supportedTargets candidate.evidenceMap ∧
          ∃ kind : TargetKind, target.targetType = kind.targetType ∧
            target.targetId ∈ found.inheritedTargetIds kind) ∧
      (validateEvidenceCoverage baseline = [] →
        (∀ kind : TargetKind, ∀ id ∈ found.inheritedTargetIds kind,
          (⟨kind.targetType, id⟩ : EvidenceUsageTarget) ∈ supportedTargets revised.evidenceMap) ∧
        ∃ later, reconcileBuilderCandidate parse dump result baselinePayload ref =
          .ok (result, later)) := by
  have again := reconcile_again codec isCandidate isBaseline accepted
  have valid := withInherited_valid (codec.valid _ _ isCandidate) (codec.valid _ _ isBaseline)
  obtain ⟨rfl, -, found, rfl, lists⟩ := reconcile_parsed isCandidate isBaseline accepted
  refine ⟨withInherited candidate baseline, found, codec.round _ valid, rfl, fun kind => ?_, ⟨_, rfl, ?_⟩,
    fun complete => ⟨fun kind id isIn => ?_, again.mpr (backed_of_complete complete)⟩⟩
  · rw [(lists kind).1, (lists kind).2.1, (lists kind).2.2.1, (lists kind).2.2.2]
    exact classified_partitions candidate baseline kind
  · intro item isIn target isTarget
    have taken : target ∈ (inheritEvidence (missingFrom candidate baseline
        (supportedTargets candidate.evidenceMap)) baseline.evidenceMap).flatMap EvidenceMapItem.usedIn :=
      List.mem_flatMap.mpr ⟨item, isIn, isTarget⟩
    obtain ⟨isInherited, notOwn⟩ := missing_iff.mp ((mem_inherited_targets fun _ _ => rfl).mp taken).1
    obtain ⟨kind, isType, isId⟩ := mem_inheritedTargets.mp isInherited
    refine ⟨notOwn, kind, isType, ?_⟩
    rw [(lists kind).1]
    exact mem_sortIds.mpr isId
  · rw [(lists kind).1] at isIn
    exact inherited_covered complete kind (mem_sortIds.mp isIn)

end

/-! ### A revision of one stage -/

/-- A candidate of one workflow stage with some evidence. -/
def brewingCandidate (evidence : List EvidenceMapItem) : BuilderCandidate where
  directoryTree := "SKILL.md"
  files := dictOf [("SKILL.md", "# Brew\n\n## [stage_heat] Heat\n\nBoil the water.\n")]
  generationReason := "A first draft."
  reviewNotes := []
  materialUsage := []
  industryStandardUsage := []
  selectedReferenceAssets := []
  evidenceMap := evidence
  missingQuestions := []
  safetyConstraints := []
  workflowStepCandidates := [⟨"stage_heat", "Heat"⟩]
  expectedEvidenceRequirements := []

/-- Evidence for its stage from one source. -/
def heatEvidence (source : EvidenceSourceRef) : EvidenceMapItem :=
  ⟨"The water has to boil.", .observedFact, [source], [⟨.workflowStage, "stage_heat"⟩]⟩

def seenSource : EvidenceSourceRef := { sourceType := .materialAnalysis, materialId := "material-1" }

def guessedSource : EvidenceSourceRef := { sourceType := .builderInference, ref := "boiling point" }

def firstGeneration : BaselineRef := ⟨"generation-1", "c0ffee", "5eed"⟩

/-- A codec whose payloads are candidates: what keeps the constraints is read as it is. -/
def readValid (candidate : BuilderCandidate) : Option BuilderCandidate :=
  if candidate.Valid then some candidate else none

theorem read_eq {payload candidate : BuilderCandidate} (isRead : readValid payload = some candidate) :
    payload = candidate ∧ payload.Valid := by
  rw [readValid, Option.ite_none_right_eq_some] at isRead
  exact ⟨Option.some.inj isRead.2, isRead.1⟩

theorem read_codec : SchemaCodec readValid id where
  valid _ _ isRead := (read_eq isRead).1 ▸ (read_eq isRead).2
  round _ isValid := if_pos isValid

/-- The candidate without evidence of its own, reconciled with a baseline. -/
def reconciledBrewing (baseline : EvidenceSourceRef) :
    Except BuilderCandidateValidationError (BuilderCandidate × Option RevisionProvenance) :=
  reconcileBuilderCandidate readValid id (brewingCandidate [])
    (brewingCandidate [heatEvidence baseline]) firstGeneration

/-- The result, reconciled once more. -/
def reconciledAgain (baseline : EvidenceSourceRef) (result : BuilderCandidate) :
    Except BuilderCandidateValidationError (BuilderCandidate × Option RevisionProvenance) :=
  reconcileBuilderCandidate readValid id result (brewingCandidate [heatEvidence baseline]) firstGeneration

theorem ok_of_toOption {ε α : Type} {x : Except ε α} {a : α} (isSome : x.toOption = some a) :
    x = .ok a := by
  cases x with
  | error e => cases isSome
  | ok b => rw [Option.some.inj isSome]

/-- Seen in the material, the stage's evidence is taken over once. -/
theorem brewing_reconciled : ∃ result provenance,
    reconciledBrewing seenSource = .ok (result, some provenance) ∧
    (∀ kind : TargetKind, ∀ id ∈ provenance.inheritedTargetIds kind,
      (⟨kind.targetType, id⟩ : EvidenceUsageTarget) ∈ supportedTargets result.evidenceMap) ∧
    ∃ later, reconciledAgain seenSource result = .ok (result, later) := by
  have checked : (reconciledBrewing seenSource).toOption.isSome = true := by decide +kernel
  obtain ⟨⟨result, provenance⟩, isSome⟩ := Option.isSome_iff_exists.mp checked
  have accepted := ok_of_toOption isSome
  have read (evidence : List EvidenceMapItem) (isValid : (brewingCandidate evidence).Valid) :
      readValid (brewingCandidate evidence) = some (brewingCandidate evidence) := if_pos isValid
  obtain ⟨revised, found, isResult, rfl, -, -, complete⟩ := reconciled read_codec
    (read [] (by decide +kernel)) (read [heatEvidence seenSource] (by decide +kernel)) accepted
  obtain rfl := (read_eq isResult).1
  obtain ⟨covered, again⟩ := complete (by decide +kernel)
  exact ⟨result, found, accepted, covered, again⟩

/-- Evidence the baseline only infers covers nothing, so it is taken over once more each time. -/
theorem brewing_reconciled_again : ∃ result provenance again later,
    reconciledBrewing guessedSource = .ok (result, provenance) ∧
    reconciledAgain guessedSource result = .ok (again, later) ∧ again ≠ result := by
  have first : (reconciledBrewing guessedSource).toOption.any (fun result =>
      result.1.evidenceMap.length == 1) = true := by
    decide +kernel
  obtain ⟨⟨result, provenance⟩, ⟨again, later⟩, isFirst, isSecond, two⟩ := checked_run (show
    ((reconciledBrewing guessedSource).toOption.bind fun result =>
      (reconciledAgain guessedSource result.1).toOption).any
      (fun again => again.1.evidenceMap.length == 2) = true by
    decide +kernel)
  rw [isFirst] at first
  refine ⟨result, provenance, again, later, ok_of_toOption isFirst, ok_of_toOption isSecond, ?_⟩
  rintro rfl
  have one : again.evidenceMap.length = 1 := beq_iff_eq.mp first
  have both : again.evidenceMap.length = 2 := beq_iff_eq.mp two
  omega

end Psop.Builder
