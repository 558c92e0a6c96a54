import Psop.Compiler.Steps

/-!
Which scaffolds the validator accepts.

There is little a scaffold could be refused for: its nodes are in normal form, lead to one another and
pass every check, and the steps fit the contract. What is left is evidence in a mode its kind cannot
be proved in, which the submitted options decide, and a step with the id of a node: the names `start` and
`terminal` are changed, `final_verify` is not, and no name is compared with the nodes of other
steps. **`scaffold_accepted_iff`** says that a scaffold is accepted exactly where neither happens.
-/
namespace Psop.Compiler.Valid

open Json

/-! ### The nodes are in normal form -/

theorem observations_path (id : String) (target : Bool) :
    normalizeTokenPath ("observations." ++ id) target = "observations." ++ id := by
  have noLead : Text.startsWith "token." ("observations." ++ id) = false := by
    rw [Text.startsWith, String.toList_append]
    rfl
  have other : ∀ names : List String, (∀ s ∈ names, ¬"observations.".toList <+: s.toList) →
      "observations." ++ id ∉ names := by
    intro names apart isName
    apply apart _ isName
    rw [String.toList_append]
    exact List.prefix_append _ _
  rw [normalizeTokenPath, Text.dropLead_of_not noLead]
  rw [if_neg (other _ (by decide))]
  split
  · rw [if_neg (other _ (by decide)), if_neg (other _ (by decide)), if_neg (other _ (by decide)),
      if_neg (other _ (by decide))]
  · rw [if_neg (other _ (by decide)), if_neg (other _ (by decide)), if_neg (other _ (by decide))]

/-- An operation that keeps an observation is normal. -/
theorem keepsObservation_same (id : String) :
    normalizeMergeOperation (keepsObservation id) = some (keepsObservation id) := by
  have operation : normalizeMergeOperation (keepsObservation id) = some (obj [("op", str "set"),
      ("path", str (normalizeTokenPath ("observations." ++ id) true)),
      ("from", str "observation")]) := rfl
  rw [operation, observations_path]
  rfl

/-- A node in normal form. -/
theorem node_same {fs : Fields} {operations : List Json} {guard : Json}
    (merge : lookup "merge" fs = some (arr operations))
    (normal : operations.mapM normalizeMergeOperation = some operations)
    (isGuard : lookup "guard" fs = some guard) (plain : normalizeGuardShape guard = guard)
    (actor : (lookup "actor" fs).isSome = true) : normalizeNode (obj fs) = some (obj fs) := by
  have first : firstOf ["guard"] fs = guard := by rw [firstOf, isGuard, Option.getD_some]
  obtain ⟨given, isActor⟩ := Option.isSome_iff_exists.mp actor
  rw [normalizeNode, first, plain, setKey_self isGuard, normalizeMerge, merge]
  dsimp only
  rw [normal, Option.map_some, setKey_self merge, Option.map_some, addActor, isActor]

theorem start_same (firstStepId : String) :
    normalizeNode (startNode firstStepId) = some (startNode firstStepId) :=
  node_same rfl rfl rfl rfl rfl

theorem instruct_same (step : ScaffoldStep) (first : Bool) :
    normalizeNode (instructNode step first) = some (instructNode step first) :=
  node_same rfl (by simp [keepsObservation_same]) rfl rfl rfl

theorem evaluate_same (step : ScaffoldStep) (next : String) :
    normalizeNode (evaluateNode step next) = some (evaluateNode step next) :=
  node_same rfl (by simp [keepsObservation_same]) rfl rfl rfl

theorem final_same : normalizeNode finalVerifyNode = some finalVerifyNode := node_same rfl rfl rfl rfl rfl

theorem terminal_same : normalizeNode terminalNode = some terminalNode := node_same rfl rfl rfl rfl rfl


/-! ### The nodes pass -/

theorem require_nil {check : Bool} (holds : check = true) (diagnostic : FormalDiagnostic) :
    require check diagnostic = [] := by
  rw [require, if_pos holds]

section Nodes
variable {fields : List String}

theorem phaseGuard_passes (phase path : String) :
    validateGuard fields path (phaseGuard phase) = [] := by
  have pass := (@validateGuard_obj fields path [("phase_is", str phase)] (by simp)).mpr
  refine pass fun f isEntry => ?_
  rw [List.mem_singleton.mp isEntry]
  have isOperator : "phase_is" ∈ guardOperators := by decide
  exact ⟨isOperator, rfl⟩

theorem path_passes {root rest : String} (known : root ∈ fields) (plain : '.' ∉ root.toList)
    (path : String) : validateTokenPath fields (root ++ String.ofList ['.'] ++ rest) path = [] := by
  rw [validateTokenPath]
  apply require_nil
  rw [Text.splitOn_at_sep _ _ _ plain, List.headD_cons]
  exact decide_eq_true known

theorem keepsObservation_passes (known : "observations" ∈ fields) (id path : String) :
    validateMergeOperation fields path (keepsObservation id) = [] := by
  have isPath : "observations." ++ id = "observations" ++ String.ofList ['.'] ++ id := rfl
  have operation : validateMergeOperation fields path (keepsObservation id) =
      validateTokenPath fields ("observations." ++ id) (path ++ ".path") := by
    rw [← List.append_nil (validateTokenPath ..)]
    rfl
  rw [operation, isPath]
  exact path_passes known (by decide) _

theorem eachAt_nil {α : Type} {check : String → α → List FormalDiagnostic} {path : String}
    {index : Nat} {xs : List α} (pass : ∀ x ∈ xs, ∀ path, check path x = []) :
    eachAt check path index xs = [] := by
  induction xs generalizing index with
  | nil => rfl
  | cons x xs ih =>
    rw [eachAt, pass x List.mem_cons_self, List.nil_append,
      ih fun y isIn => pass y (List.mem_cons_of_mem _ isIn)]

/-- A node of a supported kind and actor, with a phase for its guard and operations that pass, is
refused for its id at most. -/
theorem node_passes {fs : Fields} {kind actor phase : String} {operations : List Json}
    (isKind : lookup "kind" fs = some (str kind)) (supported : kind ∈ supportedNodeKinds)
    (isActor : lookup "actor" fs = some (namedActor actor)) (known : actor ∈ supportedActors)
    (isGuard : lookup "guard" fs = some (phaseGuard phase))
    (merge : lookup "merge" fs = some (arr operations))
    (pass : ∀ operation ∈ operations, ∀ path, validateMergeOperation fields path operation = [])
    (seen : List String) (path : String) :
    validateNode fields seen path (obj fs) = validateNodeId seen path (obj fs) := by
  have kinds : validateKind path (str kind) = [] := by
    have isKnown : kind ∈ knownNodeKinds := List.mem_append_left _ supported
    rw [validateKind, str?, Option.bind_some, if_pos isKnown]
    exact require_nil (decide_eq_true supported) _
  have actors : validateActor path (namedActor actor) = [] := by
    have name : actorName (namedActor actor) = actor := rfl
    have tool : toolName (namedActor actor) = "" := rfl
    rw [validateActor, name, tool, require_nil (decide_eq_true known), require_nil (by simp)]
    rfl
  have merges : validateMerge fields operations (path ++ ".merge") = [] := by
    rw [validateMerge]
    exact eachAt_nil fun operation isIn => pass operation isIn
  rw [validateNode, if_neg (by simp [isObj]), field_obj, isKind, field_obj, isActor, field_obj,
    isGuard, field_obj, merge]
  simp only [Option.getD_some, kinds, actors, merges, List.append_nil]
  show validateNodeId seen path (obj fs) ++ validateGuard fields _ (phaseGuard phase) = _
  rw [phaseGuard_passes, List.append_nil]

/-- Of a scaffold node only the id can be objected to. -/
def Passes (fields : List String) (node : Json) : Prop :=
  ∀ seen path, validateNode fields seen path node = validateNodeId seen path node

variable (known : ∀ root ∈ defaultTokenFields, root ∈ fields)
include known

theorem phase_passes (value path : String) :
    validateMergeOperation fields path (setValue "phase" value) = [] := by
  have operation : validateMergeOperation fields path (setValue "phase" value) =
      validateTokenPath fields "phase" (path ++ ".path") := by
    rw [← List.append_nil (validateTokenPath ..)]
    rfl
  rw [operation, validateTokenPath]
  exact require_nil (decide_eq_true (known "phase" (by decide))) _

theorem status_passes (value path : String) :
    validateMergeOperation fields path (setValue "status" value) = [] := by
  have operation : validateMergeOperation fields path (setValue "status" value) =
      validateTokenPath fields "status" (path ++ ".path") := by
    rw [← List.append_nil (validateTokenPath ..)]
    rfl
  rw [operation, validateTokenPath]
  exact require_nil (decide_eq_true (known "status" (by decide))) _

theorem from_passes (root rest : String) {target : String} (source path : String)
    (isPath : target = root ++ String.ofList ['.'] ++ rest) (isRoot : root ∈ defaultTokenFields)
    (plain : '.' ∉ root.toList) :
    validateMergeOperation fields path (setFrom target source) = [] := by
  have operation : validateMergeOperation fields path (setFrom target source) =
      validateTokenPath fields target (path ++ ".path") := by
    rw [← List.append_nil (validateTokenPath ..)]
    rfl
  rw [operation, isPath]
  exact path_passes (known root isRoot) plain _

theorem start_passes (firstStepId : String) : Passes fields (startNode firstStepId) := by
  refine node_passes rfl (by decide) rfl (by decide) rfl rfl ?_
  simp only [List.forall_mem_cons, List.not_mem_nil, false_implies, implies_true, and_true]
  refine ⟨fun path => ?_, phase_passes known _⟩
  exact from_passes known "observations" "start" _ path (by decide) (by decide) (by decide)

theorem instruct_passes (step : ScaffoldStep) (first : Bool) :
    Passes fields (instructNode step first) := by
  refine node_passes rfl (by decide) rfl (by decide) rfl rfl ?_
  simp only [List.forall_mem_cons, List.not_mem_nil, false_implies, implies_true, and_true]
  exact keepsObservation_passes (known _ (by decide)) _

theorem evaluate_passes (step : ScaffoldStep) (next : String) :
    Passes fields (evaluateNode step next) := by
  refine node_passes rfl (by decide) rfl (by decide) rfl rfl ?_
  simp only [List.forall_mem_cons, List.not_mem_nil, false_implies, implies_true, and_true]
  exact keepsObservation_passes (known _ (by decide)) _

theorem final_passes : Passes fields finalVerifyNode := by
  refine node_passes rfl (by decide) rfl (by decide) rfl rfl ?_
  simp only [List.forall_mem_cons, List.not_mem_nil, false_implies, implies_true, and_true]
  refine ⟨fun path => ?_, fun path => ?_⟩
  · exact from_passes known "observations" "final_verify" _ path (by decide) (by decide) (by decide)
  · exact from_passes known "outputs" "final_response" _ path (by decide) (by decide) (by decide)

theorem terminal_passes : Passes fields terminalNode := by
  refine node_passes rfl (by decide) rfl (by decide) rfl rfl ?_
  simp only [List.forall_mem_cons, List.not_mem_nil, false_implies, implies_true, and_true]
  refine ⟨fun path => ?_, status_passes known _, phase_passes known _⟩
  exact from_passes known "outputs" "final_response" _ path (by decide) (by decide) (by decide)

end Nodes

/-! ### The ids of the nodes -/

theorem scaffold_nodes {holds : Json → Prop} (firstStepId : String) (steps : List ScaffoldStep)
    (start : holds (startNode firstStepId))
    (instruct : ∀ step ∈ steps, ∀ first, holds (instructNode step first))
    (evaluate : ∀ step ∈ steps, ∀ next, holds (evaluateNode step next)) (final : holds finalVerifyNode)
    (terminal : holds terminalNode) : ∀ node ∈ scaffoldNodes firstStepId steps, holds node := by
  have ofSteps : ∀ first, ∀ node ∈ stepNodes first steps, holds node := by
    induction steps with
    | nil => exact fun _ => nofun
    | cons step rest ih =>
      intro first
      rw [stepNodes]
      refine List.forall_mem_cons.mpr ⟨instruct step List.mem_cons_self first,
        List.forall_mem_cons.mpr ⟨evaluate step List.mem_cons_self _, ?_⟩⟩
      exact ih (fun step isLater => instruct step (List.mem_cons_of_mem _ isLater))
        (fun step isLater => evaluate step (List.mem_cons_of_mem _ isLater)) false
  rw [scaffoldNodes]
  refine List.forall_mem_cons.mpr ⟨start, List.forall_mem_append.mpr ⟨ofSteps true, ?_⟩⟩
  exact List.forall_mem_cons.mpr ⟨final, List.forall_mem_cons.mpr ⟨terminal, nofun⟩⟩

/-- The ids of the two nodes of every step. -/
def stepNodeIds (steps : List ScaffoldStep) : List String :=
  steps.flatMap fun step => [instructId step.id, evaluateId step.id]

def scaffoldIds (steps : List ScaffoldStep) : List String :=
  "start" :: (stepNodeIds steps ++ ["final_verify", "terminal"])

theorem instructId_head (id : String) : (instructId id).toList.head? = some 'i' := by
  rw [instructId, String.toList_append]
  rfl

theorem evaluateId_head (id : String) : (evaluateId id).toList.head? = some 'e' := by
  rw [evaluateId, String.toList_append]
  rfl

theorem ne_of_head {s t : String} (differs : s.toList.head? ≠ t.toList.head?) : s ≠ t := by
  rintro rfl
  exact differs rfl

theorem instructId_inj {a b : String} (same : instructId a = instructId b) : a = b := by
  have texts := congrArg String.toList same
  simp only [instructId, String.toList_append] at texts
  exact String.toList_inj.mp (List.append_cancel_left texts)

theorem evaluateId_inj {a b : String} (same : evaluateId a = evaluateId b) : a = b := by
  have texts := congrArg String.toList same
  simp only [evaluateId, String.toList_append] at texts
  exact String.toList_inj.mp (List.append_cancel_left texts)

theorem instruct_ne_evaluate (a b : String) : instructId a ≠ evaluateId b :=
  ne_of_head (by rw [instructId_head, evaluateId_head]; decide)

theorem nodeId_of {fs : Fields} {id : String} (isId : lookup "id" fs = some (str id))
    (some : id ≠ "") : nodeId? (obj fs) = Option.some id := by
  rw [nodeId?, field_obj, isId, Option.getD_some, str?, Option.bind_some, if_neg some]

theorem instruct_id (step : ScaffoldStep) (first : Bool) :
    nodeId? (instructNode step first) = some (instructId step.id) :=
  nodeId_of rfl (ne_of_head (by rw [instructId_head]; decide))

theorem evaluate_id (step : ScaffoldStep) (next : String) :
    nodeId? (evaluateNode step next) = some (evaluateId step.id) :=
  nodeId_of rfl (ne_of_head (by rw [evaluateId_head]; decide))

theorem scaffold_ids (firstStepId : String) (steps : List ScaffoldStep) :
    nodeIds (scaffoldNodes firstStepId steps) = scaffoldIds steps := by
  have ofSteps : ∀ first, (stepNodes first steps).filterMap nodeId? = stepNodeIds steps := by
    induction steps with
    | nil => exact fun _ => rfl
    | cons step rest ih =>
      intro first
      rw [stepNodes, List.filterMap_cons_some (instruct_id step first),
        List.filterMap_cons_some (evaluate_id step _), ih false]
      rfl
  have start : nodeId? (startNode firstStepId) = some "start" := rfl
  rw [nodeIds, scaffoldNodes, List.filterMap_cons_some start, List.filterMap_append, ofSteps]
  rfl

theorem mem_stepNodeIds {id : String} {steps : List ScaffoldStep} :
    id ∈ stepNodeIds steps ↔ ∃ step ∈ steps, id = instructId step.id ∨ id = evaluateId step.id := by
  simp [stepNodeIds]

/-- A fixed id is none of a step's nodes. -/
theorem fixed_not_step {id : String} (fixed : id ∈ ["start", "final_verify", "terminal"])
    (steps : List ScaffoldStep) : id ∉ stepNodeIds steps := by
  have heads : ∀ name ∈ ["start", "final_verify", "terminal"], name.toList.head? ≠ some 'i' ∧
      name.toList.head? ≠ some 'e' := by decide
  intro isStep
  obtain ⟨step, -, rfl | rfl⟩ := mem_stepNodeIds.mp isStep
  · exact (heads _ fixed).1 (instructId_head _)
  · exact (heads _ fixed).2 (evaluateId_head _)

/-- **The ids** of a scaffold's nodes are distinct. -/
theorem ids_distinct {steps : List ScaffoldStep} (distinct : (steps.map ScaffoldStep.id).Nodup) :
    (scaffoldIds steps).Nodup := by
  have ofSteps : (stepNodeIds steps).Nodup := by
    induction steps with
    | nil => exact List.nodup_nil
    | cons step rest ih =>
      obtain ⟨own, later⟩ := List.nodup_cons.mp distinct
      have absent : ∀ other ∈ rest, other.id ≠ step.id := fun other isIn same =>
        own (same ▸ List.mem_map_of_mem isIn)
      refine List.nodup_cons.mpr ⟨fun again => ?_, List.nodup_cons.mpr ⟨fun again => ?_, ih later⟩⟩
      · rcases List.mem_cons.mp again with same | isLater
        · exact instruct_ne_evaluate _ _ same
        · obtain ⟨other, isIn, same | same⟩ := mem_stepNodeIds.mp isLater
          · exact absent other isIn (instructId_inj same).symm
          · exact instruct_ne_evaluate _ _ same
      · obtain ⟨other, isIn, same | same⟩ := mem_stepNodeIds.mp again
        · exact instruct_ne_evaluate _ _ same.symm
        · exact absent other isIn (evaluateId_inj same).symm
  have apart : ∀ id ∈ stepNodeIds steps, ∀ fixed ∈ ["final_verify", "terminal"], id ≠ fixed := by
    rintro id isStep fixed isFixed rfl
    exact fixed_not_step (List.mem_cons_of_mem _ isFixed) steps isStep
  refine List.nodup_cons.mpr ⟨fun again => ?_, List.nodup_append.mpr ⟨ofSteps, by decide, apart⟩⟩
  rcases List.mem_append.mp again with isStep | isFixed
  · exact fixed_not_step List.mem_cons_self steps isStep
  · exact absurd isFixed (by decide)

/-! ### Looking nodes up -/

/-- A node with a text for its id. -/
def Named (node : Json) : Prop := ∃ id, id ≠ "" ∧ node.field "id" = str id

theorem scaffold_named (firstStepId : String) (steps : List ScaffoldStep) :
    ∀ node ∈ scaffoldNodes firstStepId steps, Named node := by
  refine scaffold_nodes firstStepId steps ⟨"start", by decide, rfl⟩
    (fun step _ first => ⟨instructId step.id, ?_, rfl⟩)
    (fun step _ next => ⟨evaluateId step.id, ?_, rfl⟩)
    ⟨"final_verify", by decide, rfl⟩ ⟨"terminal", by decide, rfl⟩
  · exact ne_of_head (by rw [instructId_head]; decide)
  · exact ne_of_head (by rw [evaluateId_head]; decide)

theorem named_id {node : Json} (named : Named node) {id : String} :
    nodeId? node = some id ↔ node.field "id" = str id ∧ id ≠ "" := by
  obtain ⟨own, nonempty, isId⟩ := named
  rw [nodeId?, isId, str?, Option.bind_some, if_neg nonempty, Option.some.injEq, str.injEq]
  exact ⟨fun same => ⟨same, same ▸ nonempty⟩, And.left⟩

variable {nodes : List Json}

theorem find?_congr {α : Type} {p q : α → Bool} {xs : List α} (same : ∀ x ∈ xs, p x = q x) :
    xs.find? p = xs.find? q := by
  induction xs with
  | nil => rfl
  | cons x xs ih =>
    rw [List.find?_cons, List.find?_cons, same x List.mem_cons_self,
      ih fun y isIn => same y (List.mem_cons_of_mem _ isIn)]

theorem nodeOf_eq (named : ∀ node ∈ nodes, Named node) (id : String) :
    nodeOf nodes id = nodes.reverse.find? fun node => nodeId? node = some id := by
  have all : (nodes.filter fun node => (node.field "id").truthy) = nodes := by
    refine List.filter_eq_self.mpr fun node isIn => ?_
    obtain ⟨own, nonempty, isId⟩ := named node isIn
    rw [isId, truthy_str, bne_iff_ne]
    exact nonempty
  rw [nodeOf, all]
  refine find?_congr fun node isIn => ?_
  obtain ⟨own, nonempty, isId⟩ := named node (List.mem_reverse.mp isIn)
  have read : nodeId? node = some own := (named_id ⟨own, nonempty, isId⟩).mpr ⟨isId, nonempty⟩
  rw [isId, toStr_str, read, beq_eq_decide]
  simp only [Option.some.injEq]

theorem nodeOf_none_iff (named : ∀ node ∈ nodes, Named node) {id : String} :
    nodeOf nodes id = none ↔ id ∉ nodeIds nodes := by
  rw [nodeOf_eq named, List.find?_eq_none, nodeIds, List.mem_filterMap]
  simp

/-- Under distinct ids the only node with an id is found. -/
theorem find_named {node : Json} {id : String} (distinct : (nodeIds nodes).Nodup)
    (isIn : node ∈ nodes) (isId : nodeId? node = some id) :
    (nodes.find? fun node => nodeId? node = some id) = some node := by
  induction nodes with
  | nil => cases isIn
  | cons other rest ih =>
    rw [List.find?_cons]
    rcases List.mem_cons.mp isIn with rfl | later
    · rw [decide_eq_true isId]
    · have isLater : id ∈ nodeIds rest := List.mem_filterMap.mpr ⟨node, later, isId⟩
      cases own : nodeId? other with
      | none =>
        rw [nodeIds, List.filterMap_cons_none own] at distinct
        exact ih distinct later
      | some id' =>
        rw [nodeIds, List.filterMap_cons_some own] at distinct
        obtain ⟨absent, distinct⟩ := List.nodup_cons.mp distinct
        have differs : ¬id' = id := fun same => absent (same ▸ isLater)
        simp only [Option.some.injEq, decide_eq_false differs]
        exact ih distinct later

theorem nodeOf_some (named : ∀ node ∈ nodes, Named node) (distinct : (nodeIds nodes).Nodup)
    {node : Json} (isIn : node ∈ nodes) {id : String} (isId : nodeId? node = some id) :
    nodeOf nodes id = some node := by
  rw [nodeOf_eq named]
  refine find_named ?_ (List.mem_reverse.mpr isIn) isId
  rw [nodeIds, List.filterMap_reverse, List.nodup_reverse]
  exact distinct

/-! ### The graph passes -/

theorem validateNodes_nil {fields seen : List String} (passes : ∀ node ∈ nodes, Passes fields node)
    (named : ∀ node ∈ nodes, Named node) (distinct : (seen ++ nodeIds nodes).Nodup) (index : Nat) :
    validateNodes fields seen index nodes = [] := by
  induction nodes generalizing seen index with
  | nil => rfl
  | cons node rest ih =>
    obtain ⟨pass, later⟩ := List.forall_mem_cons.mp passes
    obtain ⟨⟨id, nonempty, isId⟩, named⟩ := List.forall_mem_cons.mp named
    have read : nodeId? node = some id := (named_id ⟨id, nonempty, isId⟩).mpr ⟨isId, nonempty⟩
    rw [nodeIds, List.filterMap_cons_some read] at distinct
    have fresh : id ∉ seen := fun isSeen =>
      (List.nodup_append.mp distinct).2.2 id isSeen id List.mem_cons_self rfl
    rw [validateNodes, pass, validateNodeId, read]
    show require (!decide (id ∈ seen)) _ ++ validateNodes fields (seen ++ [id]) _ rest = []
    rw [require_nil (by simpa using fresh), List.nil_append]
    apply ih later named
    rw [List.append_assoc]
    exact distinct

/-- Every transition of a node leads to one of the nodes. -/
def Leads (ids : List String) (node : Json) : Prop := ∀ path, validateTransitions ids path node = []

theorem transitions_lead {ids : List String} {node : Json} {transitions : Fields}
    (declared : (node.field "interaction").field? "transitions" = some (obj transitions))
    (lead : ∀ entry ∈ transitions, ∃ target ∈ ids, target ≠ "" ∧ entry.2 = str target) :
    Leads ids node := by
  intro path
  rw [validateTransitions, declared]
  refine List.flatMap_eq_nil_iff.mpr fun entry isEntry => ?_
  obtain ⟨target, known, nonempty, isTarget⟩ := lead entry isEntry
  rw [validateTransition, isTarget]
  dsimp only [transitionNode?]
  rw [if_neg nonempty, require_nil (decide_eq_true known)]

theorem nextPhase_nonempty (steps : List ScaffoldStep) : nextPhase steps ≠ "" := by
  cases steps with
  | nil => decide
  | cons next rest => exact ne_of_head (by rw [nextPhase, instructId_head]; decide)

theorem nextPhase_mem (steps : List ScaffoldStep) :
    nextPhase steps ∈ stepNodeIds steps ++ ["final_verify", "terminal"] := by
  cases steps with
  | nil => decide
  | cons next rest => exact List.mem_cons_self

theorem scaffold_leads {ids : List String} (firstStepId : String) (steps : List ScaffoldStep)
    (known : scaffoldIds steps ⊆ ids) : ∀ node ∈ scaffoldNodes firstStepId steps, Leads ids node := by
  have terminal : "terminal" ∈ ids := known (by simp [scaffoldIds])
  have ofSteps : ∀ first, (stepNodeIds steps ++ ["final_verify", "terminal"] ⊆ ids) →
      ∀ node ∈ stepNodes first steps, Leads ids node := by
    clear known
    induction steps with
    | nil => exact fun _ _ => nofun
    | cons step rest ih =>
      intro first known
      have later : stepNodeIds rest ++ ["final_verify", "terminal"] ⊆ ids := fun id isIn =>
        known (List.mem_cons_of_mem _ (List.mem_cons_of_mem _ isIn))
      rw [stepNodes]
      refine List.forall_mem_cons.mpr ⟨fun _ => rfl, List.forall_mem_cons.mpr ⟨?_, ih false later⟩⟩
      apply transitions_lead rfl
      simp only [List.forall_mem_cons, List.not_mem_nil, false_implies, implies_true, and_true]
      exact ⟨⟨_, later (nextPhase_mem rest), nextPhase_nonempty rest, rfl⟩,
        ⟨_, terminal, by decide, rfl⟩, _, terminal, by decide, rfl⟩
  rw [scaffoldNodes]
  refine List.forall_mem_cons.mpr ⟨fun _ => rfl, List.forall_mem_append.mpr
    ⟨ofSteps true fun id isIn => known (List.mem_cons_of_mem _ isIn), ?_⟩⟩
  refine List.forall_mem_cons.mpr ⟨?_, List.forall_mem_cons.mpr ⟨fun _ => rfl, nofun⟩⟩
  apply transitions_lead rfl
  simp only [List.forall_mem_cons, List.not_mem_nil, false_implies, implies_true, and_true]
  exact ⟨⟨_, terminal, by decide, rfl⟩, ⟨_, terminal, by decide, rfl⟩, _, terminal, by decide, rfl⟩

theorem graph_passes {fields : List String} (known : ∀ root ∈ defaultTokenFields, root ∈ fields)
    (firstStepId : String) {steps : List ScaffoldStep}
    (distinct : (steps.map ScaffoldStep.id).Nodup) :
    validateGraph fields (scaffoldNodes firstStepId steps) = [] := by
  have passes : ∀ node ∈ scaffoldNodes firstStepId steps, Passes fields node :=
    scaffold_nodes firstStepId steps (start_passes known _) (fun step _ => instruct_passes known step)
      (fun step _ => evaluate_passes known step) (final_passes known) (terminal_passes known)
  have ids := scaffold_ids firstStepId steps
  have start : hasKind "start" (scaffoldNodes firstStepId steps) = true :=
    List.any_eq_true.mpr ⟨_, List.mem_cons_self, rfl⟩
  have terminal : hasKind "terminal" (scaffoldNodes firstStepId steps) = true :=
    List.any_eq_true.mpr ⟨terminalNode, by simp [scaffoldNodes], by decide⟩
  rw [validateGraph, validateNodes_nil passes (scaffold_named _ _)
      (by rw [List.nil_append, ids]; exact ids_distinct distinct),
    require_nil start, require_nil terminal, List.append_nil, List.append_nil, List.nil_append, ids]
  exact eachAt_nil (scaffold_leads firstStepId steps (List.Subset.refl _))

/-! ### The nodes of the steps pass -/

/-- Every step has its two nodes, and the instruction knows whether it is the first. -/
theorem stepNodes_mem {steps : List ScaffoldStep} {firstStep : Bool} {start : Nat}
    {entry : String × Nat} (isEntry : entry ∈ (steps.map ScaffoldStep.id).zipIdx start) :
    ∃ step ∈ steps, step.id = entry.1 ∧
      instructNode step (firstStep && decide (entry.2 = start)) ∈ stepNodes firstStep steps ∧
      ∃ next, evaluateNode step next ∈ stepNodes firstStep steps := by
  induction steps generalizing firstStep start with
  | nil => cases isEntry
  | cons step rest ih =>
    rw [List.map_cons, List.zipIdx_cons] at isEntry
    rw [stepNodes]
    rcases List.mem_cons.mp isEntry with rfl | later
    · refine ⟨step, List.mem_cons_self, rfl, ?_, _, List.mem_cons_of_mem _ List.mem_cons_self⟩
      rw [decide_eq_true rfl, Bool.and_true]
      exact List.mem_cons_self
    · obtain ⟨other, isIn, isId, instruct, next, evaluate⟩ := @ih false _ later
      have after : start + 1 ≤ entry.2 := (List.mem_zipIdx later).1
      refine ⟨other, List.mem_cons_of_mem _ isIn, isId, ?_, next, ?_⟩
      · rw [decide_eq_false (by omega), Bool.and_false]
        exact List.mem_cons_of_mem _ (List.mem_cons_of_mem _ instruct)
      · exact List.mem_cons_of_mem _ (List.mem_cons_of_mem _ evaluate)

theorem once_nonempty (kinds seen : List (String × String)) (some : seen ≠ [] ∨ kinds ≠ []) :
    kinds.foldl (fun seen kind => if kind ∈ seen then seen else seen ++ [kind]) seen ≠ [] := by
  induction kinds generalizing seen with
  | nil => simpa using some
  | cons kind rest ih =>
    rw [List.foldl_cons]
    apply ih
    left
    split
    · rename_i isIn
      exact List.ne_nil_of_mem isIn
    · exact List.append_ne_nil_of_right_ne_nil _ (List.cons_ne_nil _ _)

theorem expectedInputs_nonempty {step : ScaffoldStep} (fit : StepFits step) :
    step.expectedInputs.items.isEmpty = false := by
  obtain ⟨requirement, isIn⟩ := List.exists_mem_of_ne_nil _ fit.asks
  have kinds : step.inputKinds ≠ [] := by
    refine once_nonempty _ _ (.inr fun none => ?_)
    have noOption := List.map_eq_nil_iff.mp (List.flatMap_eq_nil_iff.mp none requirement isIn)
    exact (fit.evidence.options requirement isIn).1 noOption
  show List.isEmpty (step.inputKinds.map _) = false
  simpa using kinds

theorem instruct_checked {step : ScaffoldStep} (fit : StepFits step) (index : Nat) :
    validateInstruct index step.id (instructNode step (decide (index = 0))) = [] := by
  have turn : (if index = 0 then "first_step_instruction" else "step_instruction") =
      turnKind (decide (index = 0)) := by
    rw [turnKind]
    simp only [decide_eq_true_eq]
  generalize decide (index = 0) = first at turn
  have kind : (instructNode step first).field "kind" = str "llm" := rfl
  have isTurn : ((instructNode step first).field "interaction").field "runner_turn_kind" =
      str (turnKind first) := rfl
  have resumes : ((instructNode step first).field "interaction").field "resume_phase" =
      str (evaluateId step.id) := rfl
  have inputs : ((instructNode step first).field "interaction").field "expected_inputs" =
      step.expectedInputs := rfl
  have isInteraction : ((instructNode step first).field "interaction").isObj = true := rfl
  have outputs : isTrue (((instructNode step first).field "interaction").field
      "output_to_terminal") = true := rfl
  have waits : isTrue (((instructNode step first).field "interaction").field
      "wait_after_output") = true := rfl
  rw [validateInstruct, turn]
  rw [kind, isTurn, resumes, inputs, isInteraction, outputs, waits, expectedInputs_nonempty fit]
  simp only [pyEq_str, beq_self_eq_true, Bool.not_false, require_nil, List.append_nil]

theorem append_some {s t : String} (some : s ≠ "") : s ++ t ≠ "" := fun none =>
  some (String.append_eq_empty_iff.mp none).1

theorem evaluateTemplate_some (step : ScaffoldStep) (next : String) :
    (str (evaluateTemplate step next)).truthy = true := by
  rw [truthy_str, bne_iff_ne]
  unfold evaluateTemplate
  repeat apply append_some
  decide

theorem evaluate_checked (step : ScaffoldStep) (next : String) :
    validateEvaluate step.id (evaluateNode step next) = [] := by
  have kind : (evaluateNode step next).field "kind" = str "llm" := rfl
  have isTurn : ((evaluateNode step next).field "interaction").field "runner_turn_kind" =
      str "evidence_evaluation" := rfl
  have evaluates : isTrue (((evaluateNode step next).field "interaction").field "evaluation") = true :=
    rfl
  have template : ((evaluateNode step next).field "projection").field "user_template" =
      str (evaluateTemplate step next) := rfl
  rw [validateEvaluate, kind, isTurn, evaluates, template, evaluateTemplate_some]
  simp only [pyEq_str, beq_self_eq_true, require_nil, List.append_nil]

theorem observation_checked {node : Json} {id : String}
    (merge : node.field "merge" = arr [keepsObservation id]) : validateOwnObservation id node = [] := by
  refine require_nil ?_ _
  rw [writesOwnObservation, merge]
  simp [items, keepsObservation, setFrom]

/-- The nodes of a scaffold, looked up by their ids. -/
theorem scaffold_node {firstStepId : String} {steps : List ScaffoldStep}
    (distinct : (steps.map ScaffoldStep.id).Nodup) {node : Json}
    (isIn : node ∈ scaffoldNodes firstStepId steps) {id : String} (isId : nodeId? node = some id) :
    nodeOf (scaffoldNodes firstStepId steps) id = some node := by
  refine nodeOf_some (scaffold_named _ _) ?_ isIn isId
  rw [scaffold_ids]
  exact ids_distinct distinct

theorem stepNodes_checked {firstStepId : String} {steps : List ScaffoldStep}
    (fit : ∀ step ∈ steps, StepFits step) (distinct : (steps.map ScaffoldStep.id).Nodup) :
    ((steps.map ScaffoldStep.id).zipIdx.flatMap fun entry =>
      validateStepNodes (scaffoldNodes firstStepId steps) entry.2 entry.1) = [] := by
  refine List.flatMap_eq_nil_iff.mpr fun entry isEntry => ?_
  obtain ⟨step, isIn, isId, instruct, next, evaluate⟩ := @stepNodes_mem _ true _ _ isEntry
  have within : ∀ node ∈ stepNodes true steps, node ∈ scaffoldNodes firstStepId steps :=
    fun node isNode => List.mem_cons_of_mem _ (List.mem_append_left _ isNode)
  rw [← isId, validateStepNodes,
    scaffold_node distinct (within _ instruct) (instruct_id step _),
    scaffold_node distinct (within _ evaluate) (evaluate_id step _)]
  dsimp only
  rw [Bool.true_and, instruct_checked (fit step isIn), evaluate_checked, observation_checked rfl,
    observation_checked rfl]
  rfl

theorem final_checked {firstStepId : String} {steps : List ScaffoldStep}
    (distinct : (steps.map ScaffoldStep.id).Nodup) :
    validateFinalVerify (scaffoldNodes firstStepId steps) = [] := by
  have isIn : finalVerifyNode ∈ scaffoldNodes firstStepId steps := by simp [scaffoldNodes]
  rw [validateFinalVerify, scaffold_node distinct isIn rfl]
  rfl

/-! ### The evidence -/

/-- The kind and the proof mode are of the declared contract. -/
structure Declared (option : EvidenceOption) : Prop where
  kind : option.kind ∈ evidenceKinds
  proofMode : option.proofMode ∈ proofModes

/-- The kind can be proved in the mode. -/
def Provable (option : EvidenceOption) : Prop :=
  (option.proofMode = "visual" → option.kind ∈ ["image", "video"]) ∧
    (option.proofMode = "attestation" → option.kind ∈ ["text", "audio"])

instance (option : EvidenceOption) : Decidable (Provable option) := inferInstanceAs (Decidable (_ ∧ _))

theorem require_eq_nil {check : Bool} {diagnostic : FormalDiagnostic} :
    require check diagnostic = [] ↔ check = true := by
  rw [require]
  split
  · exact iff_of_true rfl ‹_›
  · exact iff_of_false (List.cons_ne_nil _ _) ‹_›

theorem key_checked {key : String} {seen : List String} (text : isText (str key) = true)
    (fresh : key ∉ seen) (name path : String) :
    validateKey name seen path (str key) = [] ∧ seenKey (str key) = [key] := by
  rw [isText, bne_iff_ne] at text
  rw [validateKey, seenKey, if_neg text, if_neg text]
  exact ⟨require_nil (by simpa using fresh) _, rfl⟩

theorem strOr_str (s : String) : (str s).strOr = s := by
  rw [strOr, truthy_str]
  split
  · rfl
  · rename_i empty
    have none : s = "" := by simpa using empty
    exact none.symm

theorem option_checked {option : EvidenceOption} {seen : List String} (declared : Declared option)
    (key : isText (str option.optionKey) = true) (event : isText (str option.eventKind) = true)
    (fresh : option.optionKey ∉ seen) (path : String) :
    validateOption seen path option.toJson = [] ↔ Provable option := by
  have isKey : option.toJson.field "option_key" = str option.optionKey := rfl
  have isKind : option.toJson.field "kind" = str option.kind := rfl
  have isEvent : option.toJson.field "event_kind" = str option.eventKind := rfl
  have isMode : option.toJson.field "proof_mode" = str option.proofMode := rfl
  have object : option.toJson.isObj = true := rfl
  rw [validateOption, isKey, isKind, isEvent, isMode, object, (key_checked key fresh _ _).1, event]
  simp only [strOr_str, decide_eq_true declared.kind, decide_eq_true declared.proofMode,
    Bool.not_true, Bool.false_eq_true, if_false, require_nil, List.nil_append,
    List.append_eq_nil_iff, require_eq_nil, Provable, Bool.or_eq_true, bne_iff_ne,
    decide_eq_true_eq, ne_eq]
  exact and_congr Decidable.imp_iff_not_or.symm Decidable.imp_iff_not_or.symm

theorem options_checked {options : List EvidenceOption} {seen : List String}
    (declared : ∀ option ∈ options, Declared option)
    (keys : ∀ option ∈ options, isText (str option.optionKey) = true)
    (events : ∀ option ∈ options, isText (str option.eventKind) = true)
    (distinct : (seen ++ options.map EvidenceOption.optionKey).Nodup) (path : String) (index : Nat) :
    validateOptions path seen index (options.map EvidenceOption.toJson) = [] ↔
      ∀ option ∈ options, Provable option := by
  induction options generalizing seen index with
  | nil => exact iff_of_true rfl nofun
  | cons option rest ih =>
    rw [List.forall_mem_cons] at declared keys events
    have fresh : option.optionKey ∉ seen := fun isSeen =>
      (List.nodup_append.mp distinct).2.2 _ isSeen _ List.mem_cons_self rfl
    have isKey : option.toJson.field "option_key" = str option.optionKey := rfl
    rw [List.map_cons, validateOptions, List.append_eq_nil_iff, List.forall_mem_cons, isKey,
      (key_checked keys.1 fresh "" "").2, option_checked declared.1 keys.1 events.1 fresh]
    refine and_congr_right fun _ => ih declared.2 keys.2 events.2 ?_ _
    rw [List.append_assoc]
    exact distinct

theorem requirement_checked {requirement : EvidenceRequirement} {seen : List String}
    (declared : ∀ option ∈ requirement.options, Declared option)
    (key : isText (str requirement.requirementKey) = true)
    (description : isText (str requirement.description) = true)
    (options : requirement.options ≠ [] ∧ OptionsFit requirement.options)
    (fresh : requirement.requirementKey ∉ seen) (path : String) :
    validateRequirement seen path requirement.toJson = [] ↔
      ∀ option ∈ requirement.options, Provable option := by
  obtain ⟨some, fit⟩ := options
  have isKey : requirement.toJson.field "requirement_key" = str requirement.requirementKey := rfl
  have isDescription : requirement.toJson.field "description" = str requirement.description := rfl
  have isRequired : requirement.toJson.field "required" = .bool requirement.required := rfl
  have isOptions : (requirement.toJson.field "evidence_options").items =
      requirement.options.map EvidenceOption.toJson := rfl
  have object : requirement.toJson.isObj = true := rfl
  have nonempty : (requirement.options.map EvidenceOption.toJson).isEmpty = false := by
    simpa using some
  rw [validateRequirement, isKey, isDescription, isRequired, isOptions, object,
    (key_checked key fresh _ _).1, description, require_nil rfl]
  dsimp only
  rw [nonempty]
  exact options_checked declared fit.keys fit.events (by simpa using fit.distinct) path 0

theorem requirements_checked {requirements : List EvidenceRequirement} {seen : List String}
    (declared : ∀ requirement ∈ requirements, ∀ option ∈ requirement.options, Declared option)
    (keys : ∀ requirement ∈ requirements, isText (str requirement.requirementKey) = true)
    (descriptions : ∀ requirement ∈ requirements, isText (str requirement.description) = true)
    (options : ∀ requirement ∈ requirements,
      requirement.options ≠ [] ∧ OptionsFit requirement.options)
    (distinct : (seen ++ requirements.map EvidenceRequirement.requirementKey).Nodup)
    (path : String) (index : Nat) :
    validateRequirements path seen index (requirements.map EvidenceRequirement.toJson) = [] ↔
      ∀ requirement ∈ requirements, ∀ option ∈ requirement.options, Provable option := by
  induction requirements generalizing seen index with
  | nil => exact iff_of_true rfl nofun
  | cons requirement rest ih =>
    rw [List.forall_mem_cons] at declared keys descriptions options
    have fresh : requirement.requirementKey ∉ seen := fun isSeen =>
      (List.nodup_append.mp distinct).2.2 _ isSeen _ List.mem_cons_self rfl
    have isKey : requirement.toJson.field "requirement_key" = str requirement.requirementKey := rfl
    rw [List.map_cons, validateRequirements, List.append_eq_nil_iff, List.forall_mem_cons, isKey,
      (key_checked keys.1 fresh "" "").2,
      requirement_checked declared.1 keys.1 descriptions.1 options.1 fresh]
    refine and_congr_right fun _ => ih declared.2 keys.2 descriptions.2 options.2 ?_ _
    rw [List.append_assoc]
    exact distinct

/-! ### The contract -/

theorem step_id {step : ScaffoldStep} (fit : StepFits step) : stepId? step.contractJson = some step.id := by
  have isId : step.contractJson.field "id" = str step.id := rfl
  rw [stepId?, isId, str?, Option.bind_some, if_neg fit.named]

theorem steps_ids {steps : List ScaffoldStep} (fit : ∀ step ∈ steps, StepFits step) :
    stepIds (steps.map ScaffoldStep.contractJson) = steps.map ScaffoldStep.id := by
  rw [stepIds, List.filterMap_map, ← List.filterMap_eq_map]
  exact List.filterMap_congr fun step isIn => step_id (fit step isIn)

theorem steps_checked {ids seen : List String} {steps : List ScaffoldStep}
    (fit : ∀ step ∈ steps, StepFits step) (distinct : (seen ++ steps.map ScaffoldStep.id).Nodup)
    (known : stepNodeIds steps ⊆ ids) (index : Nat) :
    validateSteps ids seen index (steps.map ScaffoldStep.contractJson) = [] := by
  induction steps generalizing seen index with
  | nil => rfl
  | cons step rest ih =>
    obtain ⟨own, later⟩ := List.forall_mem_cons.mp fit
    have fresh : step.id ∉ seen := fun isSeen =>
      (List.nodup_append.mp distinct).2.2 _ isSeen _ List.mem_cons_self rfl
    have instruct : instructId step.id ∈ ids := known List.mem_cons_self
    have evaluate : evaluateId step.id ∈ ids := known (List.mem_cons_of_mem _ List.mem_cons_self)
    have title : step.contractJson.field "title" = str step.title := rfl
    have goal : step.contractJson.field "goal" = str step.goal := rfl
    have source : step.contractJson.field "source_evidence" = str step.sourceEvidence := rfl
    have object : step.contractJson.isObj = true := rfl
    have checked : ∀ path, validateStep ids seen path step.id step.contractJson = [] := by
      intro path
      rw [validateStep, title, goal, source, own.title, own.goal, own.sourceEvidence]
      simp only [fresh, own.own, instruct, evaluate, decide_true, decide_false, Bool.not_false,
        Bool.or_true, require_nil, List.append_nil]
    rw [List.map_cons, validateSteps, step_id own, object]
    dsimp only
    rw [checked, List.nil_append]
    apply ih later
    · rw [Option.toList_some, List.append_assoc]
      exact distinct
    · exact fun id isIn => known (List.mem_cons_of_mem _ (List.mem_cons_of_mem _ isIn))

theorem checkpoints_checked (steps : List ScaffoldStep) :
    validateCheckpoints (steps.map ScaffoldStep.id)
      (arr (steps.map ScaffoldStep.checkpointJson)) = [] := by
  have declared : ((steps.map ScaffoldStep.checkpointJson).filterMap fun checkpoint =>
      (checkpoint.field "workflow_step_id").str?) = steps.map ScaffoldStep.id := by
    rw [List.filterMap_map, ← List.filterMap_eq_map]
    rfl
  have missing : ((steps.map ScaffoldStep.id).filter fun id =>
      !(id ∈ steps.map ScaffoldStep.id)) = [] := by
    refine List.filter_eq_nil_iff.mpr fun id isIn => ?_
    simp only [isIn, decide_true, Bool.not_true, Bool.false_eq_true, not_false_eq_true]
  rw [validateCheckpoints, declared, missing]
  rfl

/-- What the builder is given says something under every heading. -/
structure Full (input : ScaffoldInput) : Prop where
  goal : input.executionGoal ≠ ""
  applicability : input.applicability ≠ []
  safety : input.safetyConstraints ≠ []
  completion : input.completionCriteria ≠ []
  recovery : input.recoveryPaths ≠ []

theorem required_checked {input : ScaffoldInput} (full : Full input) {steps : List ScaffoldStep}
    (some : steps ≠ []) : requiredFields (runtimeContract input steps) = [] := by
  refine List.flatMap_eq_nil_iff.mpr fun name isName => require_nil ?_ _
  have goal : isBlank (str input.executionGoal) = false := by simpa [isBlank] using full.goal
  have applicability : isBlank (obj input.applicability) = false := by
    simpa [isBlank] using full.applicability
  have list : ∀ {xs : List Json}, xs ≠ [] → isBlank (arr xs) = false := by
    intro xs nonempty
    simpa [isBlank] using nonempty
  have mapped : ∀ {α : Type} {xs : List α} (f : α → Json), xs ≠ [] →
      isBlank (arr (xs.map f)) = false := fun f nonempty => list (by simpa using nonempty)
  have expected : isBlank (obj (steps.map fun step => (step.id, step.evidenceJson))) = false := by
    simpa [isBlank] using some
  rw [Bool.not_eq_true']
  simp only [requiredContractFields, List.mem_cons, List.not_mem_nil, or_false] at isName
  rcases isName with rfl | rfl | rfl | rfl | rfl | rfl | rfl | rfl
  · exact goal
  · exact applicability
  · exact mapped _ some
  · exact expected
  · exact mapped _ full.safety
  · exact mapped _ some
  · exact mapped _ full.completion
  · exact list full.recovery

/-- Whether every option the steps ask for can be proved in its mode. -/
def AllProvable (steps : List ScaffoldStep) : Prop :=
  ∀ step ∈ steps, ∀ requirement ∈ step.expectedEvidence, ∀ option ∈ requirement.options,
    Provable option

def AllDeclared (steps : List ScaffoldStep) : Prop :=
  ∀ step ∈ steps, ∀ requirement ∈ step.expectedEvidence, ∀ option ∈ requirement.options,
    Declared option

theorem evidence_checked {input : ScaffoldInput} {steps : List ScaffoldStep}
    (fit : ∀ step ∈ steps, StepFits step) (distinct : (steps.map ScaffoldStep.id).Nodup)
    (declared : AllDeclared steps) :
    validateEvidenceContract (runtimeContract input steps) (steps.map ScaffoldStep.id) = [] ↔
      AllProvable steps := by
  let contracts : Fields := steps.map fun step => (step.id, step.evidenceJson)
  have version : (runtimeContract input steps).field "evidence_contract_version" =
      str "psop-evidence/v2" := rfl
  have expected : (runtimeContract input steps).field "expected_evidence" = obj contracts := rfl
  have keys : (contracts.map Prod.fst).Nodup := by
    rw [List.map_map]
    exact distinct
  have every : validateEvidenceContract (runtimeContract input steps) (steps.map ScaffoldStep.id) =
      (steps.map ScaffoldStep.id).flatMap (validateStepEvidence (obj contracts)) := by
    rw [validateEvidenceContract, version, expected]
    rfl
  rw [every, List.flatMap_eq_nil_iff, List.forall_mem_map]
  refine forall₂_congr fun step isIn => ?_
  have own : (obj contracts).field step.id = step.evidenceJson := by
    rw [field_obj, lookup_of_mem keys (List.mem_map_of_mem (f := fun step : ScaffoldStep =>
      (step.id, step.evidenceJson)) isIn), Option.getD_some]
  have requirements : (step.evidenceJson.field "requirements").items =
      step.expectedEvidence.map EvidenceRequirement.toJson := rfl
  have object : step.evidenceJson.isObj = true := rfl
  have nonempty : (step.expectedEvidence.map EvidenceRequirement.toJson).isEmpty = false := by
    simpa using (fit step isIn).asks
  have evidence := (fit step isIn).evidence
  rw [validateStepEvidence, own, requirements, object, nonempty]
  exact requirements_checked (declared step isIn) evidence.keys evidence.descriptions
    evidence.options (by simpa using evidence.distinct) _ 0

/-! ### The artifact -/

theorem mapM_same {f : Json → Option Json} {xs : List Json} (same : ∀ x ∈ xs, f x = some x) :
    xs.mapM f = some xs := by
  induction xs with
  | nil => rfl
  | cons x xs ih =>
    obtain ⟨own, later⟩ := List.forall_mem_cons.mp same
    rw [List.mapM_cons, own, ih later]
    rfl

theorem scaffold_normal (input : ScaffoldInput) (firstStepId : String) (steps : List ScaffoldStep) :
    normalizeCandidate (scaffoldFields input firstStepId steps) =
      some (scaffoldFields input firstStepId steps) := by
  have nodes : lookup "nodes" (scaffoldFields input firstStepId steps) =
      some (arr (scaffoldNodes firstStepId steps)) := rfl
  have same : (scaffoldNodes firstStepId steps).mapM normalizeNode =
      some (scaffoldNodes firstStepId steps) :=
    mapM_same (scaffold_nodes firstStepId steps (start_same _) (fun step _ => instruct_same step)
      (fun step _ => evaluate_same step) final_same terminal_same)
  have halt : lookup "halt" (scaffoldFields input firstStepId steps) =
      some (obj [("success", obj [("field_equals", obj [("path", str "status"),
        ("value", str "success")])])]) := rfl
  have plain : normalizeHalt [("success", obj [("field_equals", obj [("path", str "status"),
      ("value", str "success")])])] = obj [("success", obj [("field_equals", obj [("path",
        str "status"), ("value", str "success")])])] := rfl
  rw [normalizeCandidate, normalizeNodes, nodes]
  dsimp only
  rw [same, Option.map_some, setKey_self nodes, Option.map_some, halt]
  dsimp only
  rw [plain, setKey_self halt]

theorem scaffold_hashable (input : ScaffoldInput) (firstStepId : String) (steps : List ScaffoldStep) :
    raisesOnKind (scaffoldFields input firstStepId steps) = false := by
  have nodes : (firstOf ["nodes"] (scaffoldFields input firstStepId steps)).items =
      scaffoldNodes firstStepId steps := rfl
  rw [raisesOnKind, nodes, List.any_eq_false]
  simp only [Bool.not_eq_true]
  exact scaffold_nodes firstStepId steps rfl (fun _ _ _ => rfl) (fun _ _ _ => rfl) rfl rfl

/-- No step has the id of a node. -/
def Apart (steps : List ScaffoldStep) : Prop :=
  ∀ step ∈ steps, step.id ≠ "final_verify" ∧
    ∀ other ∈ steps, step.id ≠ instructId other.id ∧ step.id ≠ evaluateId other.id

theorem apart_iff {steps : List ScaffoldStep} (fit : ∀ step ∈ steps, StepFits step)
    (firstStepId : String) :
    ((steps.map ScaffoldStep.id).all fun id =>
      (nodeOf (scaffoldNodes firstStepId steps) id).isNone) = true ↔ Apart steps := by
  rw [List.all_eq_true, List.forall_mem_map]
  refine forall₂_congr fun step isIn => ?_
  have own : step.id ≠ "start" ∧ step.id ≠ "terminal" := by
    have free := (fit step isIn).own
    constructor
    · exact fun same => free (same ▸ by decide)
    · exact fun same => free (same ▸ by decide)
  rw [Option.isNone_iff_eq_none, nodeOf_none_iff (scaffold_named _ _), scaffold_ids, scaffoldIds]
  simp only [List.mem_cons, List.mem_append, mem_stepNodeIds, List.not_mem_nil, or_false, own.1,
    own.2, false_or, not_or, not_exists, not_and]
  exact and_comm

/-- What the validator says of a scaffold is about its evidence, or that a step has the id of a
node. -/
theorem scaffold_diagnostics {input : ScaffoldInput} (full : Full input) {firstStepId : String}
    {steps : List ScaffoldStep} (some : steps ≠ []) (fit : ∀ step ∈ steps, StepFits step)
    (distinct : (steps.map ScaffoldStep.id).Nodup) :
    validateArtifact (scaffoldFields input firstStepId steps) =
      validateEvidenceContract (runtimeContract input steps) (steps.map ScaffoldStep.id) ++
      require ((steps.map ScaffoldStep.id).all fun id =>
        (nodeOf (scaffoldNodes firstStepId steps) id).isNone) (workflowError
          ("新编译产物不允许把 workflow step 直接编译为同名线性业务节点；" ++
            "必须使用 instruct_<step_id> / evaluate_<step_id> 结构。") "nodes") := by
  have nodes : (firstOf ["nodes"] (scaffoldFields input firstStepId steps)).items =
      scaffoldNodes firstStepId steps := rfl
  have contract : firstOf ["runtime_contract"] (scaffoldFields input firstStepId steps) =
      runtimeContract input steps := rfl
  have header : validateHeader (scaffoldFields input firstStepId steps) = [] := rfl
  have init : validateInit (nodeIds (scaffoldNodes firstStepId steps))
      (firstOf ["init"] (scaffoldFields input firstStepId steps)) = [] := by
    rw [scaffold_ids]
    rfl
  have halt : validateHalt (firstOf ["halt"] (scaffoldFields input firstStepId steps)) = [] := rfl
  have graph : validateGraph (tokenFields (firstOf ["schema"]
      (scaffoldFields input firstStepId steps))) (scaffoldNodes firstStepId steps) = [] :=
    graph_passes (fun root isRoot => List.mem_append_left _ isRoot) firstStepId distinct
  have object : (runtimeContract input steps).isObj = true := rfl
  have isSteps : ((runtimeContract input steps).field "workflow_steps").items =
      steps.map ScaffoldStep.contractJson := rfl
  have checkpoints : (runtimeContract input steps).field "wait_checkpoints" =
      arr (steps.map ScaffoldStep.checkpointJson) := rfl
  have nonempty : (steps.map ScaffoldStep.contractJson).isEmpty = false := by simpa using some
  have workflow : validateWorkflowContract (runtimeContract input steps)
      (nodeIds (scaffoldNodes firstStepId steps)) = ([], steps.map ScaffoldStep.id) := by
    have known : stepNodeIds steps ⊆ scaffoldIds steps := fun id isIn =>
      List.mem_cons_of_mem _ (List.mem_append_left _ isIn)
    have checked := @steps_checked _ [] _ fit distinct known 0
    rw [validateWorkflowContract, isSteps, nonempty, checkpoints, steps_ids fit,
      required_checked full some, checkpoints_checked, scaffold_ids, checked]
    rfl
  have isSome : (steps.map ScaffoldStep.id).isEmpty = false := by simpa using some
  rw [validateArtifact, nodes, contract, header, init, halt, graph, validateContract, object, workflow]
  dsimp only
  rw [validateWorkflowNodes, isSome, final_checked distinct, stepNodes_checked fit distinct]
  simp only [Bool.not_true, Bool.false_eq_true, if_false, List.nil_append, List.append_nil]

/-! ### Every objection is an error -/

def AllErrors (diagnostics : List FormalDiagnostic) : Prop :=
  ∀ diagnostic ∈ diagnostics, diagnostic.severity = "error"

theorem errors_append {left right : List FormalDiagnostic} (isLeft : AllErrors left)
    (isRight : AllErrors right) : AllErrors (left ++ right) :=
  List.forall_mem_append.mpr ⟨isLeft, isRight⟩

theorem errors_one (message path : String) : AllErrors [workflowError message path] :=
  List.forall_mem_singleton.mpr rfl

theorem errors_require (check : Bool) (message path : String) :
    AllErrors (require check (workflowError message path)) := by
  rw [require]
  split
  · exact nofun
  · exact errors_one _ _

theorem errors_key (name : String) (seen : List String) (path : String) (key : Json) :
    AllErrors (validateKey name seen path key) := by
  unfold validateKey
  split
  · split
    · exact errors_one _ _
    · exact errors_require _ _ _
  · exact errors_one _ _

theorem errors_option (seen : List String) (path : String) (option : Json) :
    AllErrors (validateOption seen path option) := by
  rw [validateOption]
  split
  · exact errors_one _ _
  · refine errors_append (errors_append (errors_append (errors_append (errors_append
      (errors_key _ _ _ _) ?_) ?_) ?_) ?_) ?_
    all_goals exact errors_require _ _ _

theorem errors_options (path : String) (seen : List String) (index : Nat) (options : List Json) :
    AllErrors (validateOptions path seen index options) := by
  induction options generalizing seen index with
  | nil => exact nofun
  | cons option rest ih => exact errors_append (errors_option _ _ _) (ih _ _)

theorem errors_requirement (seen : List String) (path : String) (requirement : Json) :
    AllErrors (validateRequirement seen path requirement) := by
  rw [validateRequirement]
  split
  · exact errors_one _ _
  · refine errors_append (errors_append (errors_append (errors_key _ _ _ _)
      (errors_require _ _ _)) ?_) ?_
    · split
      · exact nofun
      · exact errors_one _ _
    · dsimp only
      split
      · exact errors_one _ _
      · exact errors_options _ _ _ _

theorem errors_requirements (path : String) (seen : List String) (index : Nat)
    (requirements : List Json) : AllErrors (validateRequirements path seen index requirements) := by
  induction requirements generalizing seen index with
  | nil => exact nofun
  | cons requirement rest ih => exact errors_append (errors_requirement _ _ _) (ih _ _)

theorem errors_stepEvidence (expected : Json) (stepId : String) :
    AllErrors (validateStepEvidence expected stepId) := by
  rw [validateStepEvidence]
  split
  · exact errors_one _ _
  split
  · exact errors_one _ _
  · exact errors_requirements _ _ _ _

theorem errors_evidence (contract : Json) (stepIds : List String) :
    AllErrors (validateEvidenceContract contract stepIds) := by
  unfold validateEvidenceContract
  dsimp only
  split
  · exact nofun
  split
  · exact errors_one _ _
  split
  · exact errors_one _ _
  · intro diagnostic isIn
    obtain ⟨stepId, -, isIn⟩ := List.mem_flatMap.mp isIn
    exact errors_stepEvidence _ stepId diagnostic isIn

theorem no_errors_iff {diagnostics : List FormalDiagnostic} (errors : AllErrors diagnostics) :
    hasErrors diagnostics = false ↔ diagnostics = [] := by
  rw [hasErrors, List.any_eq_false, List.eq_nil_iff_forall_not_mem]
  refine forall_congr' fun diagnostic => ?_
  constructor
  · intro none isIn
    exact none isIn (beq_iff_eq.mpr (errors diagnostic isIn))
  · exact fun none isIn => absurd isIn none

/-- **When a scaffold is accepted**: exactly if every kind of evidence can be proved in its mode and
no step has the id of a node, its own or another step's. The ids of the nodes are distinct in any
case. -/
theorem scaffold_accepted_iff {raw : List Json} {steps : List ScaffoldStep} {input : ScaffoldInput}
    {artifact : Json} (normalized : normalizeScaffoldSteps raw = .ok steps)
    (declared : AllDeclared steps) (full : Full input)
    (built : scaffoldArtifact input steps = some artifact) :
    ((accepted artifact).isSome = true ∧ (nodeIds (artifact.field "nodes").items).Nodup) ↔
      AllProvable steps ∧ Apart steps := by
  obtain ⟨first, isFirst, rfl⟩ := Option.map_eq_some_iff.mp built
  have some : steps ≠ [] := by
    rintro rfl
    cases isFirst
  obtain ⟨fit, distinct⟩ := steps_fit normalized
  have fit : ∀ step ∈ steps, StepFits step := fun step isIn => (fit step isIn).1
  have ids : (nodeIds ((obj (scaffoldFields input first.id steps)).field "nodes").items).Nodup := by
    show (nodeIds (scaffoldNodes first.id steps)).Nodup
    rw [scaffold_ids]
    exact ids_distinct distinct
  have stored : (accepted (obj (scaffoldFields input first.id steps))).isSome = true ↔
      hasErrors (validateArtifact (scaffoldFields input first.id steps)) = false := by
    rw [Option.isSome_iff_exists]
    constructor
    · rintro ⟨artifact, stored⟩
      obtain ⟨N, normal, -, errors, -⟩ := accepted_iff.mp stored
      rw [scaffold_normal] at normal
      exact Option.some.inj normal ▸ errors
    · intro errors
      exact ⟨_, accepted_iff.mpr
        ⟨_, scaffold_normal _ _ _, scaffold_hashable _ _ _, errors, rfl⟩⟩
  rw [and_iff_left ids, stored, scaffold_diagnostics full some fit distinct,
    no_errors_iff (errors_append (errors_evidence _ _) (errors_require _ _ _)),
    List.append_eq_nil_iff, require_eq_nil, evidence_checked fit distinct declared, apart_iff fit]

/-- The step of the small artifact as it is submitted, under an id. -/
def submittedStep (id : String) : Json :=
  obj [("id", str id), ("title", str brewStep.title), ("goal", str brewStep.goal),
    ("source_evidence", str brewStep.sourceEvidence)]

theorem submitted_brew : normalizeScaffoldSteps [submittedStep "brew"] = .ok [brewStep] := rfl

theorem site_state_provable {step : ScaffoldStep} (asks : step.expectedEvidence = [siteState]) :
    AllDeclared [step] ∧ AllProvable [step] := by
  simp only [AllDeclared, AllProvable, List.forall_mem_singleton, asks]
  exact ⟨fun option isIn => ⟨by revert option; decide, by revert option; decide⟩, by decide⟩

theorem brew_full : Full brewInput := ⟨by decide, by decide, by decide, by decide, by simp [brewInput]⟩

/-- The step to brew a cup may be called what it is. -/
theorem scaffold_accepted_brew :
    (accepted (obj (scaffoldFields brewInput brewStep.id [brewStep]))).isSome = true :=
  ((scaffold_accepted_iff submitted_brew (site_state_provable rfl).1 brew_full rfl).mpr
    ⟨(site_state_provable rfl).2, by unfold Apart; decide⟩).1

/-- The step may not be called `final_verify`, and keeps that name: its scaffold is refused. -/
theorem named_final_verify_refused :
    ¬∀ (raw : List Json) (steps : List ScaffoldStep) (input : ScaffoldInput) (artifact : Json),
      normalizeScaffoldSteps raw = .ok steps → AllDeclared steps → AllProvable steps → Full input →
      scaffoldArtifact input steps = some artifact →
      (accepted artifact).isSome = true ∧ (nodeIds (artifact.field "nodes").items).Nodup := by
  intro always
  have named : normalizeScaffoldSteps [submittedStep "final_verify"] =
      .ok [{ brewStep with id := "final_verify" }] := rfl
  have fits := @site_state_provable { brewStep with id := "final_verify" } rfl
  have stored := (always _ _ brewInput _ named fits.1 fits.2 brew_full rfl).1
  have refused : (accepted (obj (scaffoldFields brewInput "final_verify"
      [{ brewStep with id := "final_verify" }]))).isSome = false := by decide +kernel
  exact absurd (stored.symm.trans refused) (by decide)

end Psop.Compiler.Valid
