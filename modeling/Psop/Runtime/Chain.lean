import Psop.Compiler.Valid
import Psop.Runtime.Rounds

/-!
The graph of a scaffold as the runtime reads it.

`Scaffolded` collects what the runtime reads of an accepted scaffold. Every node asks for the phase with
its own id, so a token enables the one node of its phase, and the transitions of an evaluation lead to
the step behind it or to the end.
-/
namespace Psop.Runtime.Chain

open Json Psop.Compiler Psop.Compiler.Valid Psop.Runtime.System Psop.Runner

/-! ### Ids without spaces -/

/-- A text without white space. -/
def Spaceless (s : String) : Prop := ∀ c ∈ s.toList, Text.isSpace c = false

theorem Spaceless.append {s t : String} (first : Spaceless s) (second : Spaceless t) :
    Spaceless (s ++ t) := by
  intro c isIn
  rw [String.toList_append] at isIn
  exact (List.mem_append.mp isIn).elim (first c) (second c)

theorem Spaceless.strip {s : String} (spaceless : Spaceless s) : Text.strip s = s := by
  rw [Text.strip, Text.strip_spaceless spaceless, String.ofList_toList]

theorem spaceless_of_all {s : String} (all : (s.toList.all fun c => !Text.isSpace c) = true) :
    Spaceless s := fun c isIn => by
  simpa using List.all_eq_true.mp all c isIn

theorem numeral_spaceless (n : Nat) : Spaceless (toString n) := fun _ isIn =>
  Text.isSpace_of_isDigit (Text.isDigit_of_numeral isIn)

theorem alphanumeric_spaceless {c : Char} (alphanumeric : isAlphanumeric c = true) :
    Text.isSpace c = false := by
  have low : c.toNat < 123 := nameChar_low (.inl alphanumeric)
  have all : ∀ n < 123, isAlphanumeric (Char.ofNat n) = true → Text.isSpace (Char.ofNat n) = false := by
    decide
  have own := all c.toNat low
  rw [Char.ofNat_toNat] at own
  exact own alphanumeric

theorem freshName_spaceless {base : String} (used : List String) (spaceless : Spaceless base) :
    Spaceless (freshName base used) := by
  rcases freshName_cases base used with same | ⟨k, same⟩
  · rw [same]
    exact spaceless
  · rw [same, suffixed]
    exact (spaceless.append (spaceless_of_all (by decide))).append (numeral_spaceless k)

/-- A text of letters, digits and lines. -/
def Word (s : String) : Prop := ∀ c ∈ s.toList, isAlphanumeric c = true ∨ c = '_'

theorem Word.append {s t : String} (first : Word s) (second : Word t) : Word (s ++ t) := by
  intro c isIn
  rw [String.toList_append] at isIn
  exact (List.mem_append.mp isIn).elim (first c) (second c)

theorem word_of_all {s : String} (all : (s.toList.all fun c => isAlphanumeric c || c == '_') = true) :
    Word s := fun c isIn => by
  simpa using List.all_eq_true.mp all c isIn

theorem numeral_word (n : Nat) : Word (toString n) := fun c isIn => by
  have digit : (48 ≤ c.toNat ∧ c.toNat ≤ 57) := by
    have isDigit := Text.isDigit_of_numeral isIn
    rw [Char.isDigit, Bool.and_eq_true, decide_eq_true_eq, decide_eq_true_eq] at isDigit
    exact isDigit
  exact .inl (by simp [isAlphanumeric, digit])

theorem Word.spaceless {s : String} (word : Word s) : Spaceless s := by
  intro c isIn
  rcases word c isIn with alphanumeric | rfl
  · exact alphanumeric_spaceless alphanumeric
  · decide

theorem Word.dotless {s : String} (word : Word s) : '.' ∉ s.toList := by
  intro isIn
  rcases word _ isIn with alphanumeric | line
  · exact absurd alphanumeric (by decide)
  · exact absurd line (by decide)

/-- The builder makes an id a word. -/
theorem stepId_word (value : String) (index : Nat) (used : List String) :
    Word (safeStepId value index used) := by
  have named : ∀ normalized : String, Word normalized →
      Word (if normalized ∈ scaffoldNodeIds then normalized ++ "_stage" else normalized) := by
    intro normalized word
    split
    · exact word.append (word_of_all (by decide))
    · exact word
  have base : Word (if slug (fun c => isAlphanumeric c || c == '_') '_' (Text.lower (Text.strip value)) = ""
      then "workflow_" ++ toString index
      else slug (fun c => isAlphanumeric c || c == '_') '_' (Text.lower (Text.strip value))) := by
    split
    · exact (word_of_all (by decide)).append (numeral_word index)
    · intro c isIn
      rcases mem_slug isIn with kept | rfl
      · simpa using kept
      · exact .inr rfl
  rw [safeStepId]
  rcases freshName_cases _ used with same | ⟨k, same⟩
  · rw [same]
    exact named _ base
  · rw [same, suffixed]
    exact ((named _ base).append (word_of_all (by decide))).append (numeral_word k)

/-- No key of a requirement has a space. -/
theorem evidenceKey_spaceless (value : Json) {fallback : String} (used : List String)
    (spaceless : Spaceless fallback) : Spaceless (safeEvidenceKey value fallback used) := by
  have lowered : Spaceless (Text.lower (slug (fun c => isAlphanumeric c || c == '_' || c == '-') '_'
      (Text.strip value.strOr))) := by
    intro c isIn
    rw [Text.lower, String.toList_ofList] at isIn
    obtain ⟨upper, isUpper, isLower⟩ := List.mem_flatMap.mp isIn
    have named : NameChar upper := by
      rcases mem_slug isUpper with kept | rfl
      · simpa [NameChar, or_assoc] using kept
      · exact .inr (.inl rfl)
    obtain ⟨one, visible⟩ := nameChar_lower named
    rw [one] at isLower
    rw [List.mem_singleton.mp isLower]
    exact visible
  have base : Spaceless (if Text.lower (slug (fun c => isAlphanumeric c || c == '_' || c == '-') '_'
      (Text.strip value.strOr)) = "" then fallback else Text.lower (slug (fun c => isAlphanumeric c ||
        c == '_' || c == '-') '_' (Text.strip value.strOr))) := by
    split
    · exact spaceless
    · exact lowered
  rw [safeEvidenceKey]
  exact freshName_spaceless used base

theorem requirements_spaceless (used : List String) (index : Nat) (raws : List Json) :
    ∀ requirement ∈ normalizeRequirements used index raws, Spaceless requirement.requirementKey := by
  induction raws generalizing used index with
  | nil => exact fun _ none => absurd none List.not_mem_nil
  | cons raw rest ih =>
    rw [normalizeRequirements]
    dsimp only
    split
    · split
      · exact ih _ _
      · refine List.forall_mem_cons.mpr ⟨?_, ih _ _⟩
        exact evidenceKey_spaceless _ used
          ((spaceless_of_all (by decide)).append (numeral_spaceless index))
    · exact ih _ _

theorem evidence_spaceless {raw : Json} {requirements : List EvidenceRequirement}
    (normalized : normalizeExpectedEvidence raw = .ok requirements) :
    ∀ requirement ∈ requirements, Spaceless requirement.requirementKey := by
  rw [normalizeExpectedEvidence] at normalized
  split at normalized
  · cases normalized
  · obtain rfl := Except.ok.inj normalized
    split
    · intro requirement isIn
      rw [List.mem_singleton.mp isIn]
      exact spaceless_of_all (by decide)
    · exact requirements_spaceless _ _ _

/-- The id of a step is a word, and no key of it has a space. -/
structure Unspaced (step : ScaffoldStep) : Prop where
  word : Word step.id
  keys : ∀ requirement ∈ step.expectedEvidence, Spaceless requirement.requirementKey

theorem steps_unspaced {used : List String} {index : Nat} {raws : List Json} {steps : List ScaffoldStep}
    (normalized : normalizeSteps used index raws = .ok steps) : ∀ step ∈ steps, Unspaced step := by
  induction raws generalizing used index steps with
  | nil =>
    obtain rfl := Except.ok.inj normalized
    exact fun _ none => absurd none List.not_mem_nil
  | cons raw rest ih =>
    rw [normalizeSteps] at normalized
    obtain ⟨step, isStep, normalized⟩ := Runner.bind_ok normalized
    obtain ⟨later, isLater, same⟩ := Runner.bind_ok normalized
    obtain rfl := Except.ok.inj same
    refine List.forall_mem_cons.mpr ⟨?_, ih isLater⟩
    rw [normalizeStep] at isStep
    split at isStep
    · cases isStep
    · dsimp only at isStep
      cases evidence : Psop.Compiler.normalizeExpectedEvidence (raw.field "expected_evidence") with
      | error message =>
        rw [evidence] at isStep
        cases isStep
      | ok requirements =>
        rw [evidence] at isStep
        rw [← Except.ok.inj isStep]
        exact ⟨stepId_word _ _ _, evidence_spaceless evidence⟩

/-! ### Reading the artifact -/

structure Scaffolded (artifact : Json) (first : ScaffoldStep) (steps : List ScaffoldStep) : Prop where
  nodes : artifactNodes artifact = scaffoldNodes first.id steps
  head : steps.head? = some first
  distinct : (steps.map ScaffoldStep.id).Nodup
  fits : ∀ step ∈ steps, StepFits step
  named : ∀ step ∈ steps, Unspaced step
  entry : initialPhase artifact = "start"
  success : artifact.at? ["halt", "success", "field_equals"] =
    some (obj [("path", str "status"), ("value", str "success")])
  aborted : artifact.at? ["halt", "aborted", "field_equals"] = none
  wait : artifact.at? ["halt", "wait", "field_equals"] = none
  bound : maxSteps? artifact = some (max 10 (2 * (steps.length : Int) + 6))
  version : artifact.at? ["runtime_contract", "evidence_contract_version"] =
    some (str "psop-evidence/v2")
  evidence : ∀ step ∈ steps, artifact.at? ["runtime_contract", "expected_evidence", step.id] =
    some step.evidenceJson

/-- A key of the scaffold is read from the stored artifact. -/
theorem field?_stored {key : String} (isKey : key ∉ ["artifact_version", "graph_summary",
    "capability_summary"]) (fs : Fields) : (obj (summarized fs)).field? key = lookup key fs := by
  simp only [List.mem_cons, List.not_mem_nil, or_false, not_or] at isKey
  rw [field?_obj, lookup_summarized (Ne.symm isKey.1) (Ne.symm isKey.2.1) (Ne.symm isKey.2.2)]

theorem accepted_scaffolded {raw : List Json} {steps : List ScaffoldStep} {input : ScaffoldInput}
    {candidate artifact : Json} (normalized : normalizeScaffoldSteps raw = .ok steps)
    (built : scaffoldArtifact input steps = some candidate)
    (stored : accepted candidate = some artifact) : ∃ first, Scaffolded artifact first steps := by
  obtain ⟨first, head, rfl⟩ := Option.map_eq_some_iff.mp built
  obtain ⟨N, normal, -, -, rfl⟩ := accepted_iff.mp stored
  rw [scaffold_normal] at normal
  obtain rfl := Option.some.inj normal
  have read : ∀ {key path}, key ∉ ["artifact_version", "graph_summary", "capability_summary"] →
      (obj (summarized (scaffoldFields input first.id steps))).at? (key :: path) =
        (lookup key (scaffoldFields input first.id steps)).bind (at? path) := fun isKey => by
    rw [at?_cons, field?_stored isKey]
  have nodes : (obj (summarized (scaffoldFields input first.id steps))).field "nodes" =
      arr (scaffoldNodes first.id steps) := by
    rw [field, field?_stored (by decide)]
    rfl
  have distinct := (steps_fit normalized).2
  refine ⟨first, ?_, head, (steps_fit normalized).2,
    fun step isStep => ((steps_fit normalized).1 step isStep).1, steps_unspaced normalized,
    ?_, ?_, ?_, ?_, ?_, ?_, ?_⟩
  · rw [artifactNodes, nodes]
    exact List.filter_eq_self.mpr
      (scaffold_nodes first.id steps rfl (fun _ _ _ => rfl) (fun _ _ _ => rfl) rfl rfl)
  · rw [initialPhase, read (by decide)]
    rfl
  · rw [read (by decide)]
    rfl
  · rw [read (by decide)]
    rfl
  · rw [read (by decide)]
    rfl
  · have policies : ∃ rest, (obj (summarized (scaffoldFields input first.id steps))).field? "policies" =
        some (obj (("selection", str "priority_then_order") ::
          ("max_steps", num (max 10 (2 * steps.length + 6))) :: rest)) := by
      refine ⟨[], ?_⟩
      rw [field?_stored (by decide)]
      rfl
    obtain ⟨rest, policies⟩ := policies
    have bound : lookup "max_steps" (("selection", str "priority_then_order") ::
        ("max_steps", num (max 10 (2 * steps.length + 6))) :: rest) =
          some (num (max 10 (2 * steps.length + 6))) := rfl
    have positive : (num (max 10 (2 * (steps.length : Int) + 6))).truthy = true := by
      rw [truthy, bne_iff_ne]
      omega
    simp only [maxSteps?, policies, bound, Option.getD_some, Json.or, if_pos positive]
    rfl
  · rw [read (by decide)]
    rfl
  · intro step isStep
    rw [read (by decide)]
    have entry : (step.id, step.evidenceJson) ∈ steps.map fun step => (step.id, step.evidenceJson) :=
      List.mem_map_of_mem isStep
    have keys : ((steps.map fun step => (step.id, step.evidenceJson)).map Prod.fst).Nodup := by
      rw [List.map_map]
      exact distinct
    show (lookup step.id (steps.map fun step => (step.id, step.evidenceJson))).bind (at? []) = _
    rw [lookup_of_mem keys entry]
    rfl

/-! ### The node of a phase -/

theorem node_id_of {node : Json} {id : String} (isId : node.field "id" = str id) : nodeId node = id := by
  rw [nodeId, isId, strOr_str]

theorem node_ids_eq {nodes : List Json} (named : ∀ node ∈ nodes, Named node) :
    nodeIds nodes = nodes.map nodeId := by
  induction nodes with
  | nil => rfl
  | cons node rest ih =>
    obtain ⟨⟨id, some, isId⟩, later⟩ := List.forall_mem_cons.mp named
    have read : nodeId? node = Option.some id := (named_id ⟨id, some, isId⟩).mpr ⟨isId, some⟩
    rw [nodeIds, List.filterMap_cons_some read, List.map_cons, node_id_of isId, ← ih later, nodeIds]

/-- Among things with distinct keys one has a key. -/
theorem filter_key {α : Type} {f : α → String} {xs : List α} (distinct : (xs.map f).Nodup) {x : α}
    (isIn : x ∈ xs) : xs.filter (fun y => f y == f x) = [x] := by
  induction xs with
  | nil => cases isIn
  | cons y rest ih =>
    obtain ⟨absent, distinct⟩ := List.nodup_cons.mp distinct
    rcases List.mem_cons.mp isIn with rfl | later
    · have others : rest.filter (fun y => f y == f x) = [] := by
        refine List.filter_eq_nil_iff.mpr fun other isOther same => ?_
        exact absent (beq_iff_eq.mp same ▸ List.mem_map_of_mem isOther)
      rw [List.filter_cons, others, if_pos (beq_self_eq_true _)]
    · have differ : (f y == f x) = false :=
        beq_eq_false_iff_ne.mpr fun same => absent (same ▸ List.mem_map_of_mem later)
      rw [List.filter_cons, differ, if_neg Bool.false_ne_true, ih distinct later]

/-- Every node asks for the phase with its id. -/
theorem scaffold_guard (firstStepId : String) (steps : List ScaffoldStep) :
    ∀ node ∈ scaffoldNodes firstStepId steps, node.field? "guard" = some (phaseGuard (nodeId node)) :=
  scaffold_nodes firstStepId steps rfl (fun step _ _ => by rw [@node_id_of _ (instructId step.id) rfl]; rfl)
    (fun step _ _ => by rw [@node_id_of _ (evaluateId step.id) rfl]; rfl) rfl rfl

section

variable {artifact token : Json} {first : ScaffoldStep} {steps : List ScaffoldStep}

/-- **The node of a phase** is the one a token in it enables. -/
theorem Scaffolded.enabled (scaffolded : Scaffolded artifact first steps) {node : Json}
    (isNode : node ∈ scaffoldNodes first.id steps)
    (phase : token.at? ["phase"] = some (str (nodeId node))) : enabledNodes artifact token = [node] := by
  have read : token.field "phase" = str (nodeId node) := by
    rw [field_read, phase, Option.getD_some]
  have distinct : ((scaffoldNodes first.id steps).map nodeId).Nodup := by
    rw [← node_ids_eq (scaffold_named _ _), scaffold_ids]
    exact ids_distinct scaffolded.distinct
  rw [enabledNodes, scaffolded.nodes, ← filter_key distinct isNode]
  refine List.filter_congr fun other isOther => ?_
  rw [scaffold_guard _ _ other isOther, Option.getD_some, phaseGuard, guard_phaseIs, read]
  rw [pyEq_str]
  exact Bool.beq_comm

/-- The nodes of a step between the ones before and the ones behind it. -/
theorem step_nodes_mem (isFirst : Bool) (before : List ScaffoldStep) (step : ScaffoldStep)
    (rest : List ScaffoldStep) :
    instructNode step (isFirst && before.isEmpty) ∈ stepNodes isFirst (before ++ step :: rest) ∧
      evaluateNode step (nextPhase rest) ∈ stepNodes isFirst (before ++ step :: rest) := by
  induction before generalizing isFirst with
  | nil =>
    rw [List.nil_append, stepNodes, List.isEmpty_nil, Bool.and_true]
    exact ⟨List.mem_cons_self, List.mem_cons_of_mem _ List.mem_cons_self⟩
  | cons other before ih =>
    obtain ⟨instruct, evaluate⟩ := ih false
    rw [List.cons_append, stepNodes, List.isEmpty_cons, Bool.and_false]
    exact ⟨List.mem_cons_of_mem _ (List.mem_cons_of_mem _ instruct),
      List.mem_cons_of_mem _ (List.mem_cons_of_mem _ evaluate)⟩

theorem mem_of_steps {node : Json} (isNode : node ∈ stepNodes true steps) :
    node ∈ scaffoldNodes first.id steps :=
  List.mem_cons_of_mem _ (List.mem_append_left _ isNode)

theorem final_mem : finalVerifyNode ∈ scaffoldNodes first.id steps :=
  List.mem_cons_of_mem _ (List.mem_append_right _ List.mem_cons_self)

theorem terminal_mem : terminalNode ∈ scaffoldNodes first.id steps :=
  List.mem_cons_of_mem _ (List.mem_append_right _ (List.mem_cons_of_mem _ List.mem_cons_self))

theorem instruct_nodeId (step : ScaffoldStep) (isFirst : Bool) :
    nodeId (instructNode step isFirst) = instructId step.id := node_id_of rfl

theorem evaluate_nodeId (step : ScaffoldStep) (next : String) :
    nodeId (evaluateNode step next) = evaluateId step.id := node_id_of rfl

/-! ### Where the decisions lead -/

theorem Scaffolded.ids (scaffolded : Scaffolded artifact first steps) :
    ∀ id ∈ scaffoldIds steps, id ≠ "" → id ∈ artifactNodeIds artifact := by
  intro id isId some
  rw [artifactNodeIds, scaffolded.nodes, ← node_ids_eq (scaffold_named _ _), scaffold_ids]
  exact List.mem_filter.mpr ⟨isId, by simpa using some⟩

theorem Scaffolded.next_mem (scaffolded : Scaffolded artifact first steps)
    {before : List ScaffoldStep} {step : ScaffoldStep} {rest : List ScaffoldStep}
    (split : steps = before ++ step :: rest) : nextPhase rest ∈ artifactNodeIds artifact := by
  refine scaffolded.ids _ (List.mem_cons_of_mem _ ?_) (nextPhase_nonempty rest)
  rcases List.mem_append.mp (nextPhase_mem rest) with isStep | isFixed
  · obtain ⟨later, isLater, same⟩ := mem_stepNodeIds.mp isStep
    refine List.mem_append_left _ (mem_stepNodeIds.mpr ⟨later, ?_, same⟩)
    rw [split]
    exact List.mem_append_right _ (List.mem_cons_of_mem _ isLater)
  · exact List.mem_append_right _ isFixed

theorem Scaffolded.next_spaceless (scaffolded : Scaffolded artifact first steps)
    {before : List ScaffoldStep} {step : ScaffoldStep} {rest : List ScaffoldStep}
    (split : steps = before ++ step :: rest) : Spaceless (nextPhase rest) := by
  cases rest with
  | nil => exact spaceless_of_all (by decide)
  | cons next rest =>
    refine Spaceless.append (spaceless_of_all (by decide)) (scaffolded.named next ?_).word.spaceless
    rw [split]
    exact List.mem_append_right _ (List.mem_cons_of_mem _ List.mem_cons_self)

/-- Where a decision leads, if a step's evaluation proceeds to a phase. -/
def targetOf (next decision : String) : String :=
  if decision = "proceed" then next else "terminal"

/-- A node with the transitions of an evaluation. -/
theorem transition_of {node : Json} {next decision : String} (spaceless : Spaceless next)
    (declared : (interaction node).field "transitions" =
      obj [("proceed", str next), ("complete", str "terminal"), ("abort", str "terminal")])
    (leaves : decision ∈ leavingDecisions) :
    transitionFromInteraction node decision = targetOf next decision := by
  have terminal : Text.strip "terminal" = "terminal" := by decide
  rw [transitionFromInteraction, declared]
  simp only [leavingDecisions, List.mem_cons, List.not_mem_nil, or_false] at leaves
  rcases leaves with rfl | rfl | rfl
  · simp [lookup, transitionTarget, spaceless.strip, targetOf]
  · simp [lookup, transitionTarget, terminal, targetOf]
  · simp [lookup, transitionTarget, terminal, targetOf]

theorem Scaffolded.resolves (scaffolded : Scaffolded artifact first steps) {node : Json}
    {next decision : String} (known : next ∈ artifactNodeIds artifact)
    (spaceless : Spaceless next) (declared : (interaction node).field "transitions" =
      obj [("proceed", str next), ("complete", str "terminal"), ("abort", str "terminal")])
    (leaves : decision ∈ leavingDecisions) :
    resolveEvaluationTransition artifact node decision = targetOf next decision ∧
      targetOf next decision ∈ artifactNodeIds artifact := by
  have some : next ≠ "" := fun blank => blank_not_mem artifact (blank ▸ known)
  have isNode : targetOf next decision ∈ artifactNodeIds artifact := by
    rw [targetOf]
    split
    · exact known
    · exact scaffolded.ids _ (by simp [scaffoldIds]) (by decide)
  have nonblank : targetOf next decision ≠ "" := fun blank => blank_not_mem artifact (blank ▸ isNode)
  rw [resolveEvaluationTransition, transition_of spaceless declared leaves]
  exact ⟨by rw [if_pos nonblank, if_pos isNode], isNode⟩

/-! ### The contract -/

/-- An entry of a ledger is of a requirement of the step. -/
def EntryOf (requirement : EvidenceRequirement) (entry : Json) : Prop :=
  requirementKey entry = requirement.requirementKey ∧ isRequired entry = requirement.required

theorem normalized_requirement (index : Nat) {requirement : EvidenceRequirement}
    (spaceless : Spaceless requirement.requirementKey)
    (text : isText (str requirement.requirementKey) = true) :
    EntryOf requirement (Runtime.normalizeRequirement index requirement.toJson) := by
  have nonblank : requirement.requirementKey ≠ "" := by
    intro blank
    rw [blank] at text
    exact absurd text (by decide)
  have key : ((((requirement.toJson.field "requirement_key").or (requirement.toJson.field "id")).or
      (requirement.toJson.field "key")).strOr (numberedKey index)) = requirement.requirementKey := by
    have truthy : (str requirement.requirementKey).truthy = true := by
      rw [truthy_str, bne_iff_ne]
      exact nonblank
    show (((str requirement.requirementKey).or _).or _).strOr _ = _
    rw [Json.or, Json.or, if_pos truthy, if_pos truthy, strOr, if_pos truthy]
    rfl
  refine ⟨?_, ?_⟩
  · show (str (if Text.strip _ = "" then _ else Text.strip _)).strOr = _
    simp only [if_pos (show requirement.toJson.isObj = true from rfl), key, spaceless.strip,
      if_neg nonblank, str_or_str]
  · show (Json.bool _).truthy = requirement.required
    have required : requirement.toJson.field "required" = .bool requirement.required := rfl
    rw [if_pos (show requirement.toJson.isObj = true from rfl), required]
    cases requirement.required <;> rfl

theorem normalized_requirements (index : Nat) {requirements : List EvidenceRequirement}
    (spaceless : ∀ requirement ∈ requirements, Spaceless requirement.requirementKey)
    (texts : ∀ requirement ∈ requirements, isText (str requirement.requirementKey) = true) :
    List.Forall₂ EntryOf requirements
      (normalizeFrom index (requirements.map EvidenceRequirement.toJson)) := by
  induction requirements generalizing index with
  | nil => exact .nil
  | cons requirement rest ih =>
    obtain ⟨first, later⟩ := List.forall_mem_cons.mp spaceless
    obtain ⟨text, texts⟩ := List.forall_mem_cons.mp texts
    exact .cons (normalized_requirement index first text) (ih (index + 1) later texts)

/-- The runtime reads the requirements of a step as the scaffold has them. -/
theorem Scaffolded.requirements (scaffolded : Scaffolded artifact first steps) {step : ScaffoldStep}
    (isStep : step ∈ steps) :
    List.Forall₂ EntryOf step.expectedEvidence (evidenceRequirements artifact step.id) := by
  rw [evidenceRequirements, scaffolded.evidence step isStep, Option.getD_some]
  exact normalized_requirements 1 (scaffolded.named step isStep).keys
    (scaffolded.fits step isStep).evidence.keys

/-! ### Halts -/

theorem Scaffolded.halts_success (scaffolded : Scaffolded artifact first steps) (token : Json) :
    haltSuccess artifact token = ((token.at? ["status"]).getD null).pyEq (str "success") := by
  have path : pathParts "status" = ["status"] := by decide
  rw [haltSuccess, haltsOn, scaffolded.success]
  show (token.getPath "status").pyEq (str "success") = _
  rw [getPath, if_neg (by decide), path]

theorem Scaffolded.halts_aborted (scaffolded : Scaffolded artifact first steps) (token : Json) :
    haltAborted artifact token = hasStatus token "aborted" := by
  rw [haltAborted, haltsOn, scaffolded.aborted]

theorem Scaffolded.halts_wait (scaffolded : Scaffolded artifact first steps) (token : Json) :
    haltWait artifact token = hasStatus token "waiting" := by
  rw [haltWait, haltsOn, scaffolded.wait]

/-- The node of an id. -/
theorem Scaffolded.found (scaffolded : Scaffolded artifact first steps) {node : Json}
    (isNode : node ∈ scaffoldNodes first.id steps) :
    artifactNodeById artifact (nodeId node) = some node := by
  have distinct : ((scaffoldNodes first.id steps).map nodeId).Nodup := by
    rw [← node_ids_eq (scaffold_named _ _), scaffold_ids]
    exact ids_distinct scaffolded.distinct
  rw [artifactNodeById, scaffolded.nodes, ← List.head?_filter, filter_key distinct isNode]
  rfl

theorem Scaffolded.enters (scaffolded : Scaffolded artifact first steps) :
    entersTerminal artifact "terminal" = true ∧ entersAbortedTerminal artifact "terminal" = false := by
  have found : artifactNodeById artifact "terminal" = some terminalNode :=
    scaffolded.found terminal_mem
  rw [entersTerminal, entersAbortedTerminal, found]
  exact ⟨rfl, by decide +kernel⟩

end

end Psop.Runtime.Chain
