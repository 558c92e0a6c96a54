import Psop.Runtime.Evidence

/-!
The execution graph of an artifact as the runtime reads it: which nodes a token enables, which one
runs, when a token halts the loop, and where a decision leads.

A guard is evaluated entry by entry; all its conditions have to hold, and `always` overrides them.
A decision at an evaluation node leads where the node's own transitions say, and where they say
nothing, where the dependency graph leaves one choice.
-/
namespace Psop.Runtime

open Json

/-! ### Guards -/

mutual
/-- `_evaluate_guard` -/
def evaluateGuard (token : Json) : Json → Bool
  | .bool b => b
  | obj fs => (match lookup "always" fs with
      | some (.bool true) => true
      | _ => false) || guardEntries token fs
  | _ => false
termination_by structural x => x
def guardEntries (token : Json) : List (String × Json) → Bool
  | [] => true
  | entry :: rest => guardEntry token entry && guardEntries token rest
termination_by structural x => x
/-- The condition under one key of a guard; a key with no meaning asks for nothing. -/
def guardEntry (token : Json) : String × Json → Bool
  | (key, value) =>
    if key = "phase_is" then (token.field "phase").pyEq value
    else if key = "field_exists" then !((token.getPath value.toStr).pyEq null)
    else if key = "field_equals" then
      value.isObj && (token.getPath (value.field "path").toStr).pyEq (value.field "value")
    else if key = "all" then allOf token value
    else if key = "any" then anyOf token value
    else if key = "not" then !evaluateGuard token value
    else true
termination_by structural x => x
def allOf (token : Json) : Json → Bool
  | arr guards => allGuards token guards
  | _ => false
termination_by structural x => x
def anyOf (token : Json) : Json → Bool
  | arr guards => anyGuard token guards
  | _ => false
termination_by structural x => x
def allGuards (token : Json) : List Json → Bool
  | [] => true
  | guard :: rest => evaluateGuard token guard && allGuards token rest
termination_by structural x => x
def anyGuard (token : Json) : List Json → Bool
  | [] => false
  | guard :: rest => evaluateGuard token guard || anyGuard token rest
termination_by structural x => x
end

/-- The guard that asks for one phase. -/
theorem guard_phaseIs (token : Json) (phase : String) :
    evaluateGuard token (obj [("phase_is", str phase)]) = (token.field "phase").pyEq (str phase) := by
  simp [evaluateGuard, guardEntries, guardEntry]

def artifactNodes (artifact : Json) : List Json := (artifact.field "nodes").items.filter Json.isObj

/-- `_enabled_nodes` -/
def enabledNodes (artifact token : Json) : List Json :=
  (artifactNodes artifact).filter fun node =>
    evaluateGuard token ((node.field? "guard").getD (obj [("always", .bool true)]))

/-! ### Selection -/

/-- The priority `_select_node` sorts by, `none` where it is no number. -/
def nodePriority (node : Json) : Option Int :=
  match (node.field? "policy").getD (obj []) with
  | obj policy =>
    ((lookup "priority" policy).getD ((node.field? "priority").getD (num 100))).toInt?
  | _ => some 100

def sortKeyLt (a b : Int × List Nat) : Bool :=
  decide (a.1 < b.1) || (a.1 == b.1 && Text.codesLt a.2 b.2)

def nodeIdKey (node : Json) : List Nat := Text.codes ((node.field? "id").getD (str "")).toStr

/-- `_select_node`: the first of the nodes that come first by priority and id. -/
def selectNode (enabled : List Json) : Option Json := do
  let keyed ← enabled.mapM fun node => (nodePriority node).map fun p => ((p, nodeIdKey node), node)
  match keyed with
  | [] => none
  | first :: rest =>
    some (rest.foldl (fun best next => if sortKeyLt next.1 best.1 then next else best) first).2

theorem keyed_mem {enabled : List Json} {keyed : List ((Int × List Nat) × Json)}
    (priced : (enabled.mapM fun node =>
      (nodePriority node).map fun p => ((p, nodeIdKey node), node)) = some keyed) :
    ∀ entry ∈ keyed, entry.2 ∈ enabled := by
  induction enabled generalizing keyed with
  | nil =>
    obtain rfl : [] = keyed := by simpa using priced
    exact fun _ none => absurd none List.not_mem_nil
  | cons node rest ih =>
    rw [List.mapM_cons] at priced
    obtain ⟨first, isFirst, priced⟩ := Option.bind_eq_some_iff.mp priced
    obtain ⟨others, isOthers, same⟩ := Option.bind_eq_some_iff.mp priced
    obtain rfl := Option.some.inj same
    obtain ⟨p, -, rfl⟩ := Option.map_eq_some_iff.mp isFirst
    intro entry isEntry
    rcases List.mem_cons.mp isEntry with rfl | isLater
    · exact List.mem_cons_self
    · exact List.mem_cons_of_mem _ (ih isOthers entry isLater)

/-- The selected node is one of the enabled ones. -/
theorem select_mem {enabled : List Json} {node : Json} (selected : selectNode enabled = some node) :
    node ∈ enabled := by
  unfold selectNode at selected
  obtain ⟨keyed, priced, selected⟩ := Option.bind_eq_some_iff.mp selected
  have sound := keyed_mem priced
  split at selected
  · cases selected
  · rename_i first rest
    obtain rfl := Option.some.inj selected
    have best : ∀ (later : List ((Int × List Nat) × Json)) best,
        later.foldl (fun best next => if sortKeyLt next.1 best.1 then next else best) best ∈
          best :: later := by
      intro later
      induction later with
      | nil => exact fun best => List.mem_cons_self
      | cons next later ih =>
        intro best
        rw [List.foldl_cons]
        split
        · exact List.mem_cons_of_mem _ (ih next)
        · rcases List.mem_cons.mp (ih best) with same | isLater
          · rw [same]
            exact List.mem_cons_self
          · exact List.mem_cons_of_mem _ (List.mem_cons_of_mem _ isLater)
    exact sound _ (best rest first)

/-! ### Halts -/

/-- A halt condition of the artifact, or the status word it stands for by default. -/
def haltsOn (name word : String) (artifact token : Json) : Bool :=
  match artifact.at? ["halt", name, "field_equals"] with
  | some (obj condition) =>
    (token.getPath ((lookup "path" condition).getD null).toStr).pyEq
      ((lookup "value" condition).getD null)
  | _ => hasStatus token word

/-- `_halt_success` -/
def haltSuccess (artifact token : Json) : Bool := haltsOn "success" "success" artifact token

/-- `_halt_aborted` -/
def haltAborted (artifact token : Json) : Bool := haltsOn "aborted" "aborted" artifact token

/-- `_halt_wait` -/
def haltWait (artifact token : Json) : Bool := haltsOn "wait" "waiting" artifact token

/-! ### Transitions -/

/-- `_node_is_evaluation` -/
def isEvaluation (node : Json) : Bool :=
  ((interaction node).field "evaluation").truthy || Text.startsWith "evaluate_" (nodeId node)

/-- The target a transition entry names: `some` stops the search, also with an empty target. -/
def transitionTarget (raw : Json) : Option String :=
  match raw with
  | str target => some (Text.strip target)
  | obj fs =>
    ["phase", "next_phase", "to"].findSome? fun key => match lookup key fs with
      | some (str target) => if Text.strip target = "" then none else some (Text.strip target)
      | _ => none
  | _ => none

/-- `_transition_from_node_interaction` -/
def transitionFromInteraction (node : Json) (decision : String) : String :=
  match (interaction node).field "transitions" with
  | obj transitions =>
    let candidates := if decision = "proceed" then [decision, "continue"] else [decision]
    (candidates.findSome? fun key => transitionTarget ((lookup key transitions).getD null)).getD ""
  | _ => ""

/-- `_artifact_node_ids` -/
def artifactNodeIds (artifact : Json) : List String :=
  ((artifactNodes artifact).map nodeId).filter (· ≠ "")

/-- `_artifact_node_by_id` -/
def artifactNodeById (artifact : Json) (id : String) : Option Json :=
  (artifactNodes artifact).find? fun node => nodeId node == id

/-- `_transition_enters_terminal` -/
def entersTerminal (artifact : Json) (phase : String) : Bool :=
  match artifactNodeById artifact phase with
  | some node => (node.field "kind").strOr == "terminal"
  | none => false

/-- `_transition_enters_aborted_terminal` -/
def entersAbortedTerminal (artifact : Json) (phase : String) : Bool :=
  match artifactNodeById artifact phase with
  | some node =>
    (node.field "kind").strOr == "terminal" &&
      (Text.contains "abort" (Text.lower (nodeId node)) ||
        (node.field "merge").items.any fun operation =>
          (operation.field "op").str? == some "set" && (operation.field "path").str? == some "status" &&
            (operation.field "value").str? == some "aborted")
  | none => false

/-- `_transition_from_dependency_graph` -/
def transitionFromDependencyGraph (artifact node : Json) (decision : String) : String :=
  let ids := artifactNodeIds artifact
  let targets := ((artifact.field "dependency_graph_for_view").items.filter fun edge =>
    edge.isObj && (edge.field "from").strOr == nodeId node &&
      decide ((edge.field "to").strOr ∈ ids)).map fun edge => (edge.field "to").strOr
  let only := fun (choices : List String) => match choices with
    | [target] => some target
    | _ => none
  let nonAbort := targets.filter fun target => !entersAbortedTerminal artifact target
  if decision = "abort" then
    match only (targets.filter (entersAbortedTerminal artifact)) with
    | some target => target
    | none => if "terminal" ∈ targets then "terminal" else (only targets).getD ""
  else if decision = "complete" then
    if "terminal" ∈ targets then "terminal" else (only nonAbort).getD ""
  else
    match only (nonAbort.filter (· ≠ "terminal")) with
    | some target => target
    | none => (only targets).getD ""

/-- `_resolve_evaluation_transition`: the empty string where the decision leads nowhere. -/
def resolveEvaluationTransition (artifact node : Json) (decision : String) : String :=
  let transition := transitionFromInteraction node decision
  if transition ≠ "" then if transition ∈ artifactNodeIds artifact then transition else ""
  else transitionFromDependencyGraph artifact node decision

end Psop.Runtime
