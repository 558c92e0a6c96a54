import Psop.Compiler.Scaffold
import Psop.Compiler.Stable
import Psop.Runtime.Graph

/-!
Where the decision of an evaluation leads in an accepted artifact.

The validator checks every transition a node declares and asks no node to declare one. What it checks is
the target as it is written, and the runtime drops surrounding whitespace; where nothing is declared the
runtime takes the one choice the dependency graph leaves. `transitions_resolve` says that a decision
finds a node exactly if one of these does, and that a declared decision always does where node ids have
no surrounding whitespace.
-/
namespace Psop.Runtime

open Json Compiler

/-! ### The declared target -/

/-- The target a transition names as it is written: `some` stops the search. -/
def writtenTarget (raw : Json) : Option String :=
  match raw with
  | str target => some target
  | obj fs =>
    ["phase", "next_phase", "to"].findSome? fun key => match lookup key fs with
      | some (str target) => if Text.strip target = "" then none else some target
      | _ => none
  | _ => none

/-- The keys a decision is declared under. -/
def decisionKeys (decision : String) : List String :=
  if decision = "proceed" then [decision, "continue"] else [decision]

/-- The target a node declares for a decision, as it is written. -/
def declared? (node : Json) (decision : String) : Option String :=
  match (interaction node).field "transitions" with
  | obj transitions =>
    ((decisionKeys decision).findSome? fun key =>
      writtenTarget ((lookup key transitions).getD null)).bind fun target =>
        if Text.strip target = "" then none else some target
  | _ => none

theorem transitionTarget_eq (raw : Json) :
    transitionTarget raw = (writtenTarget raw).map Text.strip := by
  cases raw with
  | str target => rfl
  | obj fs =>
    simp only [transitionTarget, writtenTarget, List.map_findSome?]
    congr 1
    funext key
    rw [Function.comp_apply]
    generalize lookup key fs = found
    cases found with
    | none => rfl
    | some value =>
      cases value with
      | str target =>
        by_cases blank : Text.strip target = ""
        · simp only [if_pos blank, Option.map_none]
        · simp only [if_neg blank, Option.map_some]
      | null | bool | num | arr | obj => rfl
  | null | bool | num | arr => rfl

/-- The runtime follows the declared target without its surrounding whitespace. -/
theorem transitionFromInteraction_eq (node : Json) (decision : String) :
    transitionFromInteraction node decision = ((declared? node decision).map Text.strip).getD "" := by
  unfold transitionFromInteraction declared?
  cases (interaction node).field "transitions" with
  | obj transitions =>
    show (List.findSome? (fun key => transitionTarget _) (decisionKeys decision)).getD "" = _
    simp only [transitionTarget_eq]
    rw [show (fun key => (writtenTarget ((lookup key transitions).getD null)).map Text.strip) =
      Option.map Text.strip ∘ fun key => writtenTarget ((lookup key transitions).getD null) from rfl,
      ← List.map_findSome?]
    cases List.findSome? (fun key => writtenTarget ((lookup key transitions).getD null))
        (decisionKeys decision) with
    | none => rfl
    | some target =>
      by_cases blank : Text.strip target = ""
      · simp [blank]
      · simp [blank]
  | null | bool | num | str | arr => rfl

/-! ### The dependency graph -/

/-- The nodes the dependency graph leads to from a node. -/
def viewTargets (artifact node : Json) : List String :=
  ((artifact.field "dependency_graph_for_view").items.filter fun edge =>
    edge.isObj && (edge.field "from").strOr == nodeId node &&
      decide ((edge.field "to").strOr ∈ artifactNodeIds artifact)).map fun edge =>
        (edge.field "to").strOr

/-- The dependency graph leaves one choice for a decision. -/
def OneChoice (artifact node : Json) (decision : String) : Prop :=
  let targets := viewTargets artifact node
  let nonAbort := targets.filter fun target => !entersAbortedTerminal artifact target
  if decision = "abort" then
    (∃ target, targets.filter (entersAbortedTerminal artifact) = [target]) ∨
      "terminal" ∈ targets ∨ ∃ target, targets = [target]
  else if decision = "complete" then "terminal" ∈ targets ∨ ∃ target, nonAbort = [target]
  else (∃ target, nonAbort.filter (· ≠ "terminal") = [target]) ∨ ∃ target, targets = [target]

theorem viewTargets_mem {artifact node : Json} {target : String}
    (isTarget : target ∈ viewTargets artifact node) : target ∈ artifactNodeIds artifact := by
  obtain ⟨edge, isEdge, rfl⟩ := List.mem_map.mp isTarget
  have kept := (List.mem_filter.mp isEdge).2
  simp only [Bool.and_eq_true, decide_eq_true_eq] at kept
  exact kept.2

theorem blank_not_mem (artifact : Json) : "" ∉ artifactNodeIds artifact := by
  simp [artifactNodeIds]

def single? : List String → Option String
  | [target] => some target
  | _ => none

theorem single?_iff {choices : List String} {target : String} :
    single? choices = some target ↔ choices = [target] := by
  unfold single?
  split
  · simp
  · rename_i other
    exact iff_of_false (fun same => nomatch same) (other target)

/-- A choice among nodes is one, or else what is taken instead. -/
theorem single?_mem_iff {ids choices : List String} (known : ∀ t ∈ choices, t ∈ ids) (rest : String) :
    (single? choices).getD rest ∈ ids ↔ (∃ target, choices = [target]) ∨ rest ∈ ids := by
  cases isSingle : single? choices with
  | none =>
    refine (or_iff_right ?_).symm
    rintro ⟨target, same⟩
    rw [single?_iff.mpr same] at isSingle
    cases isSingle
  | some target =>
    have same := single?_iff.mp isSingle
    exact iff_of_true (known target (same ▸ List.mem_cons_self)) (.inl ⟨target, same⟩)

theorem match_eq_getD (choice : Option String) (rest : String) :
    (match choice with
      | some target => target
      | none => rest) = choice.getD rest := by
  cases choice <;> rfl

theorem dependency_graph_eq (artifact node : Json) (decision : String) :
    transitionFromDependencyGraph artifact node decision =
      let targets := viewTargets artifact node
      let nonAbort := targets.filter fun target => !entersAbortedTerminal artifact target
      if decision = "abort" then
        (single? (targets.filter (entersAbortedTerminal artifact))).getD
          (if "terminal" ∈ targets then "terminal" else (single? targets).getD "")
      else if decision = "complete" then
        if "terminal" ∈ targets then "terminal" else (single? nonAbort).getD ""
      else (single? (nonAbort.filter (· ≠ "terminal"))).getD ((single? targets).getD "") := by
  unfold transitionFromDependencyGraph
  dsimp only
  by_cases isAbort : decision = "abort"
  · rw [if_pos isAbort, if_pos isAbort]
    exact match_eq_getD _ _
  by_cases isComplete : decision = "complete"
  · rw [if_neg isAbort, if_neg isAbort, if_pos isComplete, if_pos isComplete]
    rfl
  · rw [if_neg isAbort, if_neg isAbort, if_neg isComplete, if_neg isComplete]
    exact match_eq_getD _ _

/-- The dependency graph leads to a node exactly where it leaves one choice. -/
theorem dependency_graph_iff (artifact node : Json) (decision : String) :
    transitionFromDependencyGraph artifact node decision ∈ artifactNodeIds artifact ↔
      OneChoice artifact node decision := by
  have known : ∀ target ∈ viewTargets artifact node, target ∈ artifactNodeIds artifact :=
    fun _ => viewTargets_mem
  have blank := blank_not_mem artifact
  rw [dependency_graph_eq, OneChoice]
  generalize viewTargets artifact node = targets at known
  generalize artifactNodeIds artifact = ids at known blank
  have kept : ∀ (p : String → Bool), ∀ t ∈ targets.filter p, t ∈ ids :=
    fun p t isIn => known t (List.mem_filter.mp isIn).1
  have terminal : ∀ {rest : String}, (if "terminal" ∈ targets then "terminal" else rest) ∈ ids ↔
      "terminal" ∈ targets ∨ rest ∈ ids := by
    intro rest
    by_cases isTarget : "terminal" ∈ targets
    · rw [if_pos isTarget]
      exact iff_of_true (known _ isTarget) (.inl isTarget)
    · rw [if_neg isTarget]
      exact (or_iff_right isTarget).symm
  dsimp only
  by_cases isAbort : decision = "abort"
  · rw [if_pos isAbort, if_pos isAbort, single?_mem_iff (kept _), terminal, single?_mem_iff known,
      or_iff_left blank]
  by_cases isComplete : decision = "complete"
  · rw [if_neg isAbort, if_neg isAbort, if_pos isComplete, if_pos isComplete, terminal,
      single?_mem_iff (kept _), or_iff_left blank]
  · rw [if_neg isAbort, if_neg isAbort, if_neg isComplete, if_neg isComplete,
      single?_mem_iff fun t isIn => kept _ t (List.mem_filter.mp isIn).1, single?_mem_iff known,
      or_iff_left blank]

/-! ### Resolution -/

/-- A decision leads somewhere: to the declared target, which is a node without its surrounding
whitespace too, or with none declared to the one choice of the dependency graph. -/
def Leads (artifact node : Json) (decision : String) : Prop :=
  match declared? node decision with
  | some target => Text.strip target ∈ artifactNodeIds artifact
  | none => OneChoice artifact node decision

theorem declared_nonblank {node : Json} {decision target : String}
    (declared : declared? node decision = some target) : Text.strip target ≠ "" := by
  unfold declared? at declared
  split at declared
  · obtain ⟨written, -, isTarget⟩ := Option.bind_eq_some_iff.mp declared
    split at isTarget
    · cases isTarget
    · rename_i nonblank
      rw [← Option.some.inj isTarget]
      exact nonblank
  · cases declared

theorem resolves_iff (artifact node : Json) (decision : String) :
    resolveEvaluationTransition artifact node decision ∈ artifactNodeIds artifact ↔
      Leads artifact node decision := by
  rw [resolveEvaluationTransition, transitionFromInteraction_eq, Leads]
  cases declared : declared? node decision with
  | none => exact dependency_graph_iff artifact node decision
  | some target =>
    have nonblank := declared_nonblank declared
    simp only [Option.map_some, Option.getD_some, ne_eq, nonblank, not_false_eq_true, if_true]
    split_ifs with isNode
    · exact iff_of_true isNode isNode
    · exact iff_of_false (blank_not_mem artifact) isNode

/-! ### Declared targets of an accepted artifact -/

/-- No node id of the artifact has surrounding whitespace. -/
def TrimmedIds (artifact : Json) : Prop := ∀ id ∈ artifactNodeIds artifact, Text.strip id = id

theorem validated_target {ids : List String} {path : String} {transition : String × Json}
    (pass : hasErrors (validateTransition ids path transition) = false) :
    ∃ target, transitionNode? transition.2 = some target ∧ target ∈ ids ∧ target ≠ "" := by
  unfold validateTransition at pass
  cases named : transitionNode? transition.2 with
  | none =>
    simp only [named] at pass
    exact absurd pass (by simp [hasErrors, error])
  | some target =>
    simp only [named] at pass
    split at pass
    · exact absurd pass (by simp [hasErrors, error])
    · rename_i nonempty
      refine ⟨target, rfl, ?_, nonempty⟩
      by_contra unknown
      exact absurd pass (by simp [require, hasErrors, error, unknown])

/-- A text that is not blank. -/
def textOf : Json → Option String
  | str text => if Text.strip text = "" then none else some text
  | _ => none

theorem textOf_falsy {value : Json} (falsy : value.truthy = false) : textOf value = none := by
  cases value with
  | str text =>
    obtain rfl : text = "" := by simpa using falsy
    rfl
  | null | bool | num | arr | obj => rfl

theorem textOf_target {value : Json} {target : String} (read : value.str?.getD "" = target)
    (nonblank : Text.strip target ≠ "") : textOf value = some target := by
  cases value with
  | str text =>
    obtain rfl : text = target := read
    exact if_neg nonblank
  | null | bool | num | arr | obj =>
    obtain rfl : "" = target := read
    exact absurd rfl nonblank

/-- What the validator reads off a transition is the target the runtime follows, if it is not blank. -/
theorem written_eq {raw : Json} {written target : String} (isWritten : writtenTarget raw = some written)
    (named : transitionNode? raw = some target) (nonblank : Text.strip target ≠ "") :
    written = target := by
  cases raw with
  | str text => exact (Option.some.inj isWritten).symm.trans (Option.some.inj named)
  | obj fs =>
    have read : ∀ key, (match lookup key fs with
        | some (str target) => if Text.strip target = "" then none else some target
        | _ => none) = textOf (firstOf [key] fs) := by
      intro key
      rw [firstOf_single]
      cases lookup key fs with
      | none => rfl
      | some value => cases value <;> rfl
    have named : (((firstOf ["phase"] fs).or (firstOf ["next_phase"] fs)).or
        (firstOf ["to"] fs)).str?.getD "" = target := Option.some.inj named
    have isWritten : List.findSome? (fun key => textOf (firstOf [key] fs)) ["phase", "next_phase", "to"] =
        some written := by
      simp only [← read]
      exact isWritten
    simp only [List.findSome?] at isWritten
    unfold Json.or at named
    -- the first truthy value of the three is the one read, and nothing before it is a text
    cases first : (firstOf ["phase"] fs).truthy with
    | true =>
      simp only [first, if_true] at named
      rw [textOf_target named nonblank] at isWritten
      exact (Option.some.inj isWritten).symm
    | false =>
      simp only [first, Bool.false_eq_true, if_false] at named
      rw [textOf_falsy first] at isWritten
      cases second : (firstOf ["next_phase"] fs).truthy with
      | true =>
        simp only [second, if_true] at named
        rw [textOf_target named nonblank] at isWritten
        exact (Option.some.inj isWritten).symm
      | false =>
        simp only [second, Bool.false_eq_true, if_false] at named
        rw [textOf_falsy second, textOf_target named nonblank] at isWritten
        exact (Option.some.inj isWritten).symm
  | null | bool | num | arr => cases isWritten

theorem hasErrors_append (left right : List FormalDiagnostic) :
    hasErrors (left ++ right) = (hasErrors left || hasErrors right) := List.any_append

theorem eachAt_pass {α : Type} {check : String → α → List FormalDiagnostic} {path : String}
    {index : Nat} {xs : List α} (pass : hasErrors (eachAt check path index xs) = false) :
    ∀ x ∈ xs, ∃ path, hasErrors (check path x) = false := by
  induction xs generalizing index with
  | nil => exact fun _ none => nomatch none
  | cons x xs ih =>
    rw [eachAt, hasErrors_append, Bool.or_eq_false_iff] at pass
    exact List.forall_mem_cons.mpr ⟨⟨_, pass.1⟩, ih pass.2⟩

/-- Every transition a node of an accepted artifact declares names a node. -/
theorem accepted_transitions {fs : Fields} (passed : hasErrors (validateArtifact fs) = false)
    {node : Json} (isNode : node ∈ (firstOf ["nodes"] fs).items) {transitions : Fields}
    (declares : (node.field "interaction").field? "transitions" = some (obj transitions)) :
    ∀ transition ∈ transitions, ∃ target, transitionNode? transition.2 = some target ∧
      target ∈ nodeIds (firstOf ["nodes"] fs).items ∧ target ≠ "" := by
  rw [validateArtifact] at passed
  simp only [hasErrors_append, validateGraph, Bool.or_eq_false_iff] at passed
  obtain ⟨path, passed⟩ := eachAt_pass passed.1.1.1.2.2 node isNode
  rw [validateTransitions, declares] at passed
  intro transition isIn
  refine @validated_target _ (path ++ ".interaction.transitions") _ ?_
  rw [hasErrors, List.any_flatMap, List.any_eq_false] at passed
  exact Bool.not_eq_true _ ▸ passed transition isIn

/-- The ids the validator collects are ids of nodes to the runtime. -/
theorem nodeIds_known {artifact : Json} {id : String}
    (isId : id ∈ nodeIds (artifact.field "nodes").items) : id ∈ artifactNodeIds artifact := by
  obtain ⟨node, isNode, isId⟩ := List.mem_filterMap.mp isId
  obtain ⟨text, isText, isId⟩ := Option.bind_eq_some_iff.mp isId
  split at isId
  · cases isId
  · rename_i nonempty
    obtain rfl := Option.some.inj isId
    have isField : node.field "id" = str text := by
      generalize node.field "id" = value at isText
      cases value with
      | str text' => exact congrArg str (Option.some.inj isText)
      | null | bool | num | arr | obj => cases isText
    have isObj : node.isObj = true := by
      cases node with
      | obj fs => rfl
      | null | bool | num | str | arr => cases isField
    have named : nodeId node = text := by
      rw [nodeId, isField, strOr, truthy_str, if_pos (by simpa using nonempty)]
      rfl
    refine List.mem_filter.mpr ⟨List.mem_map.mpr ⟨node, ?_, named⟩, by simpa using nonempty⟩
    exact List.mem_filter.mpr ⟨isNode, isObj⟩

/-- A decision that a node of an accepted artifact declares leads somewhere, if no node id has
surrounding whitespace. -/
theorem declared_leads {candidate artifact node : Json} {decision : String}
    (stored : accepted candidate = some artifact) (isNode : node ∈ artifactNodes artifact)
    (trimmed : TrimmedIds artifact) (declares : (declared? node decision).isSome = true) :
    Leads artifact node decision := by
  obtain ⟨target, declared⟩ := Option.isSome_iff_exists.mp declares
  rw [Leads, declared]
  obtain ⟨fs, rfl⟩ := accepted_obj stored
  obtain ⟨N, -, -, passed, rfl⟩ := accepted_iff.mp stored
  have nodes : (obj (summarized N)).field "nodes" = firstOf ["nodes"] N :=
    firstOf_summarized (by decide) N
  have isItem : node ∈ (firstOf ["nodes"] N).items := nodes ▸ (List.mem_filter.mp isNode).1
  unfold declared? at declared
  split at declared
  · rename_i transitions isField
    obtain ⟨written, found, isTarget⟩ := Option.bind_eq_some_iff.mp declared
    obtain ⟨key, -, isWritten⟩ := List.exists_of_findSome?_eq_some found
    have declares : (node.field "interaction").field? "transitions" = some (obj transitions) := by
      rw [interaction, field_obj] at isField
      rw [field?]
      cases hasField : lookup "transitions" (node.field "interaction").fields with
      | none =>
        rw [hasField] at isField
        cases isField
      | some value =>
        rw [hasField] at isField
        exact congrArg some isField
    cases isRaw : lookup key transitions with
    | none =>
      rw [isRaw] at isWritten
      cases isWritten
    | some raw =>
      rw [isRaw] at isWritten
      obtain ⟨named, isNamed, isId, nonempty⟩ :=
        accepted_transitions passed isItem declares _ (lookup_mem isRaw)
      have known : named ∈ artifactNodeIds (obj (summarized N)) := nodeIds_known (nodes.symm ▸ isId)
      have same : Text.strip named = named := trimmed named known
      obtain rfl := written_eq isWritten isNamed (same.symm ▸ nonempty)
      rw [same, if_neg nonempty] at isTarget
      obtain rfl := Option.some.inj isTarget
      show Text.strip written ∈ _
      rw [same]
      exact known
  · cases declared

/-- **A decision of a node, an evaluation or not, resolves to a node exactly where the node declares one
or the dependency graph leaves one choice**, and in an accepted artifact without whitespace around node ids it always does where it is
declared. -/
theorem transitions_resolve {candidate artifact : Json} (stored : accepted candidate = some artifact)
    {node : Json} (isNode : node ∈ artifactNodes artifact) (decision : String) :
    (resolveEvaluationTransition artifact node decision ∈ artifactNodeIds artifact ↔
      Leads artifact node decision) ∧
    (TrimmedIds artifact → (declared? node decision).isSome = true → Leads artifact node decision) :=
  ⟨resolves_iff artifact node decision, declared_leads stored isNode⟩

/-- The evaluation of the scaffold's one step declares where each decision leads. -/
theorem transitions_resolve_brewing :
    ∃ artifact, accepted (brewCandidate (scaffoldNodes "brew" [brewStep]) []) = some artifact ∧
      ∃ node ∈ artifactNodes artifact, isEvaluation node = true ∧
        (resolveEvaluationTransition artifact node "abort" ∈ artifactNodeIds artifact ↔
          Leads artifact node "abort") ∧
        (TrimmedIds artifact → (declared? node "abort").isSome = true →
          Leads artifact node "abort") := by
  obtain ⟨artifact, stored, evaluates⟩ := (Option.any_eq_true ..).mp (show
    (accepted (brewCandidate (scaffoldNodes "brew" [brewStep]) [])).any
      (fun artifact => (artifactNodes artifact).any isEvaluation) = true by decide +kernel)
  obtain ⟨node, isNode, evaluates⟩ := List.any_eq_true.mp evaluates
  exact ⟨artifact, stored, node, isNode, evaluates, transitions_resolve stored isNode "abort"⟩

/-- The scaffold of one step, its evaluation without transitions and its graph without edges. -/
def strandedCandidate : Json :=
  withField "dependency_graph_for_view" (arr []) (brewCandidate
    [startNode "brew", instructNode brewStep true,
      withField "interaction" (obj [("runner_turn_kind", str "evidence_evaluation"),
        ("evaluation", .bool true)]) (evaluateNode brewStep "final_verify"),
      finalVerifyNode, terminalNode] [])

/-- It is accepted, and no decision of its evaluation leads anywhere. -/
theorem transitions_missing :
    ∃ artifact node, accepted strandedCandidate = some artifact ∧ node ∈ artifactNodes artifact ∧
      isEvaluation node = true ∧
      ∀ decision ∈ ["proceed", "complete", "abort"],
        resolveEvaluationTransition artifact node decision ∉ artifactNodeIds artifact := by
  obtain ⟨artifact, stored, passes⟩ := (Option.any_eq_true ..).mp (show
    (accepted strandedCandidate).any (fun artifact => (artifactNodes artifact).any fun node =>
      isEvaluation node && decide (∀ decision ∈ ["proceed", "complete", "abort"],
        resolveEvaluationTransition artifact node decision ∉ artifactNodeIds artifact)) = true by
    decide +kernel)
  obtain ⟨node, isNode, passes⟩ := List.any_eq_true.mp passes
  rw [Bool.and_eq_true, decide_eq_true_eq] at passes
  exact ⟨artifact, node, stored, isNode, passes.1, passes.2⟩

end Psop.Runtime
