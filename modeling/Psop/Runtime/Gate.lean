import Psop.Runtime.Stages
import Psop.Runtime.Grounds

/-!
The way a run of a scaffold goes, and what it has shown on the way.

`OnStage` is the invariant of a run: its tokens stand in the chain (`Runs`, `Waits`), every step they are
past was passed by an evaluation that is stored, and the ledger stored with it accepts what the step
requires (`Passes`). **`never_stuck`** says what a turn finds in any reachable state: a halted token, or
exactly one enabled node, and a node for every decision taken there; **`turns_go_on`** that its rounds are
those of a loop without the failures for want of steps or nodes. **`steps_in_order`** says what a stored
token has behind it, **`success_gated`** what a run that succeeded has, and **`evidence_gated`** how far.
-/
namespace Psop.Runtime.Chain

open Json Psop.Compiler Psop.Compiler.Valid Psop.Runtime.System Psop.Runner

/-! ### The nodes of a scaffold and the checkpoint -/

theorem observation_parts {id : String} (word : Word id) :
    pathParts ("observations." ++ id) = ["observations", id] := by
  rw [observations_path, pathParts, Text.splitOn, Text.split_chars_no_sep _ _ word.dotless,
    List.map_singleton, String.ofList_toList]

/-- Where a node may write. -/
def writtenPaths (node : Json) : List (List String) :=
  [["observations", nodeId node], ["outputs", "final_response"], ["phase"], ["status"]]

/-- The operation takes nothing from the token, and writes along one of these paths. -/
def FilesAt (paths : List (List String)) (operation : Json) : Prop :=
  mergeSource? operation = none ∧ ∀ path, mergeTarget? operation = some path → pathParts path ∈ paths

theorem files_own {node : Json} {id : String} (isId : node.field "id" = str id) (word : Word id) :
    FilesAt (writtenPaths node) (keepsObservation id) := by
  refine ⟨(files_keeps id).1, fun path target => ?_⟩
  obtain rfl : "observations." ++ id = path := Option.some.inj target
  rw [observation_parts word, writtenPaths, node_id_of isId]
  exact List.mem_cons_self

theorem files_at {paths : List (List String)} {operation : Json} {path : String}
    (source : mergeSource? operation = none) (target : mergeTarget? operation = some path)
    (isPath : pathParts path ∈ paths) : FilesAt paths operation := by
  refine ⟨source, fun other isTarget => ?_⟩
  obtain rfl := Option.some.inj (target.symm.trans isTarget)
  exact isPath

/-- **What the nodes of a scaffold write**: what they observed, the answer, the phase and the status. -/
theorem scaffold_files (firstId : String) {steps : List ScaffoldStep} (words : ∀ step ∈ steps, Word step.id) :
    ∀ node ∈ scaffoldNodes firstId steps, ∀ operation ∈ (node.field "merge").items,
      FilesAt (writtenPaths node) operation := by
  have kept : ∀ {node : Json} {id : String}, node.field "id" = str id → Word id →
      node.field "merge" = arr [keepsObservation id] → ∀ operation ∈ (node.field "merge").items,
        FilesAt (writtenPaths node) operation := by
    intro node id isId word merges operation isOperation
    rw [merges] at isOperation
    obtain rfl := List.mem_singleton.mp isOperation
    exact files_own isId word
  refine scaffold_nodes firstId steps ?_
    (fun step isStep _ => kept rfl ((word_of_all (by decide)).append (words step isStep)) rfl)
    (fun step isStep _ => kept rfl ((word_of_all (by decide)).append (words step isStep)) rfl) ?_ ?_
  · refine List.forall_mem_cons.mpr ⟨@files_own (startNode firstId) "start" rfl (word_of_all (by decide)), ?_⟩
    exact List.forall_mem_singleton.mpr (files_at rfl rfl (by simp [writtenPaths, show pathParts "phase" =
      ["phase"] by decide]))
  · refine List.forall_mem_cons.mpr
      ⟨@files_own finalVerifyNode "final_verify" rfl (word_of_all (by decide)), ?_⟩
    exact List.forall_mem_singleton.mpr (files_at (by decide) rfl (by decide))
  · exact List.forall_mem_cons.mpr ⟨files_at (by decide) rfl (by decide),
      List.forall_mem_cons.mpr ⟨files_at rfl rfl (by decide),
        List.forall_mem_singleton.mpr (files_at rfl rfl (by decide))⟩⟩

/-- An operation keeps apart from a path that it does not write. -/
theorem FilesAt.apart {paths : List (List String)} {operation : Json} (files : FilesAt paths operation)
    {p : List String} (beside : ∀ q ∈ paths, Json.Apart q p) : OperationApart operation p := by
  refine fun path target => ⟨beside _ (files.2 path target), fun source isSource => ?_⟩
  rw [files.1] at isSource
  cases isSource

/-- A path beside the observations, and what else a scaffold writes. -/
theorem written_beside {p : List String} (beside : Json.Apart ["observations"] p ∧
    Json.Apart ["outputs", "final_response"] p ∧ Json.Apart ["phase"] p ∧ Json.Apart ["status"] p)
    (node : Json) : ∀ q ∈ writtenPaths node, Json.Apart q p := by
  simp only [writtenPaths, List.forall_mem_cons]
  exact ⟨beside.1.shorten, beside.2.1, beside.2.2.1, beside.2.2.2, fun _ none => absurd none List.not_mem_nil⟩

/-- A node that files its observation under a word names nothing of it. -/
theorem keeps_spares {id : String} (word : Word id) :
    OperationSpares "evidence_assessment" (keepsObservation ("evaluate_" ++ id)) := by
  intro path target
  obtain rfl : "observations." ++ ("evaluate_" ++ id) = path := Option.some.inj target
  have apart : "evaluate_" ++ id ≠ "evidence_assessment" := by
    intro same
    have third := congrArg (fun s : String => s.toList[2]?) same
    simp at third
  have from_ : "evidence_assessment" ∉ pathParts "observation" := by decide
  refine ⟨?_, .inr from_⟩
  rw [observation_parts ((word_of_all (by decide)).append word)]
  simp [Ne.symm apart]

theorem scaffold_leaves (firstId : String) {steps : List ScaffoldStep}
    (words : ∀ step ∈ steps, Word step.id) :
    ∀ node ∈ scaffoldNodes firstId steps, LeavesCheckpoint node := by
  have beside : ∀ p ∈ keptPaths, Json.Apart ["observations"] p ∧ Json.Apart ["outputs", "final_response"] p ∧
      Json.Apart ["phase"] p ∧ Json.Apart ["status"] p := by decide
  have assesses : ∀ node ∈ scaffoldNodes firstId steps, isEvaluation node = true →
      (∀ operation ∈ (node.field "merge").items, OperationSpares "evidence_assessment" operation) ∧
        ((interaction node).field "wait_after_output").truthy = false := by
    refine scaffold_nodes firstId steps (fun evaluates => ?_) (fun step _ isFirst evaluates => ?_)
      (fun step isStep next _ => ⟨fun operation isOperation => ?_, rfl⟩) (by decide +kernel)
      (by decide +kernel)
    · rw [start_plain] at evaluates
      cases evaluates
    · rw [instruct_plain] at evaluates
      cases evaluates
    · obtain rfl : operation = keepsObservation (evaluateId step.id) := List.mem_singleton.mp isOperation
      exact keeps_spares (words step isStep)
  intro node isNode
  refine ⟨⟨fun operation isOperation p isPath => ?_, fun evaluates => (assesses node isNode evaluates).1⟩,
    fun evaluates => (assesses node isNode evaluates).2⟩
  exact (scaffold_files firstId words node isNode operation isOperation).apart
    (written_beside (beside p isPath) node)

theorem Scaffolded.leaves {artifact : Json} {first : ScaffoldStep} {steps : List ScaffoldStep}
    (scaffolded : Scaffolded artifact first steps) : LeavesCheckpoints artifact := by
  intro node isNode
  rw [scaffolded.nodes] at isNode
  exact scaffold_leaves _ (fun step isStep => (scaffolded.named step isStep).word) node isNode

/-! ### Evaluations that go on -/

/-- What the runtime makes of an agent's answer comes from a validated observation. -/
theorem agent_observed {now runId projectionRef : String}
    {artifact node token observation charged : Json} {outcome : AgentOutcome}
    (kind : node.field "kind" = str "llm") (actor : node.field "actor" = namedActor "agent.llm")
    (ran : executeNode now runId projectionRef artifact node token outcome =
      .ok (observation, charged)) :
    ∃ agentRunId usage added candidate validated,
      validateRunnerObservation (buildRunnerContext now runId projectionRef artifact node token)
        candidate = .ok validated ∧ observation = mapRunnerObservation agentRunId usage added validated := by
  have name : actorName (namedActor "agent.llm") = "agent.llm" := rfl
  unfold executeNode at ran
  simp only [kind, actor, name, str?, Option.some_beq_some, String.reduceBEq, Bool.false_eq_true,
    if_false, Bool.or_self, if_true] at ran
  unfold executeRunnerAgentNode at ran
  split at ran
  · cases ran
  · cases ran
  · split at ran
    · cases ran
    · rename_i accepted
      split at ran
      · cases ran
      · obtain ⟨rfl, -⟩ := Prod.mk.inj (Except.ok.inj ran)
        exact ⟨_, _, _, _, _, accepted, rfl⟩

/-- The token of an evaluation has the ledger that its observation was merged into. -/
theorem interaction_ledger {now runId : String} {latest : Int} {events : List TerminalEvent}
    {artifact node observation a : Json} {accept : Int} {applied : Applied} {waits : Bool}
    (evaluates : isEvaluation node = true)
    (unasked : ((interaction node).field "wait_after_output").truthy = false)
    (did : applyNodeInteraction now runId latest events artifact node observation accept a = applied)
    (ok : applied.outcome = .ok waits) :
    ∃ ledgered, mergeEvidenceProgress now (nodeId node) artifact observation a = some ledgered ∧
      Spares ledgered applied.token := by
  subst did
  unfold applyNodeInteraction at ok ⊢
  split at ok
  · cases ok
  · simp only [evaluates, if_true] at ok ⊢
    cases merged : mergeEvidenceProgress now (nodeId node) artifact observation a with
    | none =>
      rw [merged] at ok
      cases ok
    | some ledgered =>
      simp only [waitAfterOutput, unasked, Bool.not_false, if_true]
      exact ⟨ledgered, rfl, conclude_spares⟩

/-- The ledger at the wait of a step has one entry for each requirement, under its key. -/
theorem Scaffolded.ledger {artifact token : Json} {first step : ScaffoldStep}
    {steps : List ScaffoldStep} {evidence entries : List Json}
    (scaffolded : Scaffolded artifact first steps) (isStep : step ∈ steps) (awaits : Awaits step token)
    (checkpoint : Checkpoint artifact token evidence entries) :
    List.Forall₂ EntryOf step.expectedEvidence entries := by
  have isText : waitText "workflow_step_id" token = step.id := by
    rw [waitText, awaits.named, Option.getD_some, str_or_str]
  have kept := checkpoint.ledger
  rw [isText] at kept
  refine @forall_two_trans _ _ _ EntryOf (KeptEntry evidence) EntryOf ?_ _ _ _
    (scaffolded.requirements isStep) kept
  intro requirement declared entry isEntry kept
  refine ⟨kept.key.trans isEntry.1, ?_⟩
  rw [isRequired, kept.declared _ (by decide)]
  exact isEntry.2

theorem keys_of_entries {requirements : List EvidenceRequirement} {entries : List Json}
    (all : List.Forall₂ EntryOf requirements entries) :
    entries.map requirementKey = requirements.map EvidenceRequirement.requirementKey := by
  induction all with
  | nil => rfl
  | cons one _ ih => rw [List.map_cons, List.map_cons, one.1, ih]

theorem entry_of_requirement {requirements : List EvidenceRequirement} {entries : List Json}
    (all : List.Forall₂ EntryOf requirements entries) {requirement : EvidenceRequirement}
    (isIn : requirement ∈ requirements) : ∃ entry ∈ entries, EntryOf requirement entry := by
  induction all with
  | nil => cases isIn
  | cons one _ ih =>
    rcases List.mem_cons.mp isIn with rfl | later
    · exact ⟨_, List.mem_cons_self, one⟩
    · obtain ⟨entry, isEntry, is⟩ := ih later
      exact ⟨entry, List.mem_cons_of_mem _ isEntry, is⟩

/-- The ledger accepts every evidence that a step requires. -/
def Accepts (step : ScaffoldStep) (token : Json) : Prop :=
  ∀ requirement ∈ step.expectedEvidence, requirement.required = true →
    ∃ entry ∈ ledgerEntries token, requirementKey entry = requirement.requirementKey ∧
      entryStatus entry = some "accepted"

theorem continues_of_proceed {decision : RunnerDecision}
    (proceeds : decision.runtimeDecision = "proceed") : decision = .continue_ := by
  cases decision with
  | continue_ => rfl
  | needMoreEvidence | retry | abort | complete => exact absurd proceeds (by decide)

/-- A runner reads the version of the contract from the artifact. -/
theorem contract_isV2 {artifact : Json} (version : artifact.at? ["runtime_contract",
      "evidence_contract_version"] = some (str "psop-evidence/v2"))
    (now runId projectionRef : String) (node token : Json) :
    (buildRunnerContext now runId projectionRef artifact node token).isV2 = true := by
  obtain ⟨fs, reads⟩ := at?_above ["runtime_contract"] version
  have contract : artifact.field "runtime_contract" = obj fs := by
    rw [field_read, reads, Option.getD_some]
  have read := (at?_below reads ["evidence_contract_version"]).symm.trans version
  rw [RunnerContext.isV2, beq_iff_eq]
  show ((obj (artifact.field "runtime_contract").fields).field "evidence_contract_version").strOr = _
  rw [contract]
  show ((obj fs).field "evidence_contract_version").strOr = _
  rw [field_read, read, Option.getD_some, str_or_str]

section Evaluations

variable {platform : Platform} {s : System} {attempt : Nat} {turn : Turn} {outcome : AgentOutcome}
  {supply : Supply} {observation charged merged : Json} {shown : Rows} {first step : ScaffoldStep}
  {steps : List ScaffoldStep}

/-- **The gate of a step**: an evaluation that goes on leaves a ledger that accepts what the step
requires. -/
theorem evaluate_accepts {next : String} (scaffolded : Scaffolded s.rows.artifact first steps)
    (ok : Grounded s) (isStep : step ∈ steps) (awake : hasStatus turn.token "waiting" = false)
    (awaits : Awaits step turn.token)
    (commits : Commits platform s attempt turn outcome supply (evaluateNode step next) observation charged
      merged shown) (decides : decisionOf observation = "proceed") {waits : Bool}
    (applied : (interacted platform s turn (evaluateNode step next) observation merged).outcome = .ok waits)
    (still : Awaits step (interacted platform s turn (evaluateNode step next) observation merged).token) :
    Accepts step (interacted platform s turn (evaluateNode step next) observation merged).token := by
  obtain ⟨attended, drawn⟩ := ok.turns _ _ commits.selected.looping
  have rounds : InRounds s.rows.events s.rows.artifact turn.token :=
    ⟨awaits.has, ⟨attended.checkpointed, .inr attended.received⟩, drawn⟩
  obtain ⟨evidence, checkpoint, -⟩ := rounds.checkpoint
  have keys : ((ledgerEntries turn.token).map requirementKey).Nodup := by
    rw [keys_of_entries (scaffolded.ledger isStep awaits checkpoint)]
    exact (scaffolded.fits step isStep).evidence.distinct
  obtain ⟨made, ran, merge⟩ := commits.merge
  obtain ⟨agentRunId, usage, added, candidate, validated, accepted, rfl⟩ := agent_observed rfl rfl ran
  have v2 : (buildRunnerContext (platform.isoformat s.now) s.rows.run.id 
      ("runtime://runs/" ++ s.rows.run.id ++ "/snapshots/" ++ toString turn.snapshotSeq ++
        "/projection/" ++ ((evaluateNode step next).field "id").toStr) s.rows.artifact
      (evaluateNode step next) turn.token).isV2 = true := contract_isV2 scaffolded.version ..
  have vouches := rounds.vouches awake rfl v2 keys accepted
  have continues : candidate.decision = .continue_ := by
    rw [← (validate_spec accepted rfl).2.1]
    exact continues_of_proceed ((decision_of_mapped rfl merge).symm.trans decides)
  obtain ⟨ledgered, ledger, conclude⟩ := interaction_ledger rfl rfl rfl applied
  have leaves := ok.leaves _ commits.isNode
  have allAccepted := vouches.merged continues leaves.toLeavesLedger _ _ _ _ _ _ _ _ _
    (execute_node_writes ran) merge ledger
  rw [← conclude.entries] at allAccepted
  obtain ⟨evidence', entries', after⟩ := (commits.grounds ok (.inr ⟨_, applied⟩)).1.rested.checkpointed
    still.has
  intro requirement isIn required
  obtain ⟨entry, isEntry, key, same⟩ := entry_of_requirement (scaffolded.ledger isStep still after) isIn
  rw [← after.ledgerEntries] at isEntry
  exact ⟨entry, isEntry, key, allAccepted entry isEntry (same.trans required)⟩

end Evaluations

/-! ### What a run has shown -/

/-- The snapshot a step was passed at: its evaluation goes on to the next node, over a ledger that accepts
what the step requires. -/
structure Passes (step : ScaffoldStep) (next : String) (snapshot : Snapshot) : Prop where
  selected : snapshot.selected = some (evaluateId step.id)
  stands : Stands "running" next snapshot.token
  awaits : Awaits step snapshot.token
  accepts : Accepts step snapshot.token

/-- So many steps were passed. -/
def Passed (steps : List ScaffoldStep) (snapshots : List Snapshot) (count : Nat) : Prop :=
  ∀ (before : List ScaffoldStep) (step : ScaffoldStep) (rest : List ScaffoldStep),
    steps = before ++ step :: rest → before.length < count →
      ∃ snapshot ∈ snapshots, Passes step (nextPhase rest) snapshot

/-- The evaluation of a step completed the run. -/
def Cut (steps : List ScaffoldStep) (snapshots : List Snapshot) : Prop :=
  ∃ step ∈ steps, ∃ snapshot ∈ snapshots, snapshot.selected = some (evaluateId step.id) ∧
    Stands "running" "terminal" snapshot.token

/-- The evaluation of the step after so many completed the run. -/
def CutAfter (steps : List ScaffoldStep) (snapshots : List Snapshot) (count : Nat) : Prop :=
  ∃ (before : List ScaffoldStep) (step : ScaffoldStep) (rest : List ScaffoldStep),
    steps = before ++ step :: rest ∧ before.length = count ∧
      ∃ snapshot ∈ snapshots, snapshot.selected = some (evaluateId step.id) ∧
        Stands "running" "terminal" snapshot.token

/-- What a token has behind it where it stands. -/
structure Arrived (steps : List ScaffoldStep) (snapshots : List Snapshot) (nodes passed : Nat) :
    Prop where
  behind : Passed steps snapshots passed
  ended : nodes = 2 * steps.length + 2 ∨ nodes = 2 * steps.length + 3 →
    passed = steps.length ∨ CutAfter steps snapshots passed

/-- A token stands in the chain with what it needs behind it. -/
inductive Stored (steps : List ScaffoldStep) (snapshots : List Snapshot) (token : Json) : Prop
  | runs {nodes passed : Nat} (runs : Runs steps token nodes passed)
      (arrived : Arrived steps snapshots nodes passed) : Stored steps snapshots token
  | waits {passed : Nat} (waits : Waits steps token passed) (behind : Passed steps snapshots passed) :
      Stored steps snapshots token

section Shown

variable {steps : List ScaffoldStep} {snapshots later : List Snapshot} {count nodes passed : Nat}

theorem Passed.more (passed : Passed steps snapshots count) (more : snapshots ⊆ later) :
    Passed steps later count := fun before step rest split below =>
  (passed before step rest split below).imp fun _ found => ⟨more found.1, found.2⟩

theorem Passed.fewer {fewer : Nat} (passed : Passed steps snapshots count) (le : fewer ≤ count) :
    Passed steps snapshots fewer := fun before step rest split below =>
  passed before step rest split (Nat.lt_of_lt_of_le below le)

/-- The next step. -/
theorem Passed.next {before : List ScaffoldStep} {step : ScaffoldStep} {rest : List ScaffoldStep}
    {new : Snapshot} (passed : Passed steps snapshots before.length)
    (split : steps = before ++ step :: rest) (passes : Passes step (nextPhase rest) new) :
    Passed steps (snapshots ++ [new]) (before.length + 1) := by
  intro before' step' rest' split' below
  rcases Nat.lt_succ_iff_lt_or_eq.mp below with earlier | same
  · obtain ⟨snapshot, stored, is⟩ := passed before' step' rest' split' earlier
    exact ⟨snapshot, List.mem_append_left _ stored, is⟩
  · obtain ⟨-, lists⟩ := List.append_inj (split.symm.trans split') same.symm
    obtain ⟨rfl, rfl⟩ := List.cons.inj lists
    exact ⟨new, List.mem_append_right _ (List.mem_singleton_self _), passes⟩

theorem CutAfter.more (cut : CutAfter steps snapshots count) (more : snapshots ⊆ later) :
    CutAfter steps later count := by
  obtain ⟨before, step, rest, split, place, snapshot, stored, is⟩ := cut
  exact ⟨before, step, rest, split, place, snapshot, more stored, is⟩

theorem CutAfter.cut (cut : CutAfter steps snapshots count) : Cut steps snapshots := by
  obtain ⟨before, step, rest, split, -, cut⟩ := cut
  exact ⟨step, split ▸ by simp, cut⟩

theorem Arrived.more (arrived : Arrived steps snapshots nodes passed) (more : snapshots ⊆ later) :
    Arrived steps later nodes passed :=
  ⟨arrived.behind.more more, fun end_ => (arrived.ended end_).imp_right (·.more more)⟩

/-- A token that stands within the chain needs only its steps. -/
theorem Passed.arrived (passed : Passed steps snapshots count) (early : nodes ≤ 2 * steps.length + 1) :
    Arrived steps snapshots nodes count :=
  ⟨passed, fun end_ => by omega⟩

theorem Stored.staged {token : Json} (stored : Stored steps snapshots token) :
    ∃ passed, Staged steps passed token ∧ Passed steps snapshots passed := by
  cases stored with
  | runs runs arrived => exact ⟨_, .inl ⟨_, runs⟩, arrived.behind⟩
  | waits waits behind => exact ⟨_, .inr waits, behind⟩

/-- A token in the chain was not cancelled. -/
theorem Stored.uncancelled {token : Json} (stored : Stored steps snapshots token) :
    hasStatus token "cancelled" = false := by
  cases stored with
  | runs runs => exact runs.uncancelled
  | waits waits =>
    cases waits with
    | held _ stands =>
      rw [stands.is]
      rfl

/-- How the goal comes nearer by a node that was stored. -/
theorem Onward.arrived {held node observation token : Json} {later' after : Nat} {new : Snapshot}
    (onward : Onward steps held node observation token nodes passed later' after)
    (arrived : Arrived steps snapshots nodes passed)
    (selected : new.selected = some (node.field "id").toStr) (isToken : new.token = token)
    (accepts : ∀ step ∈ steps, ∀ next, node = evaluateNode step next → Awaits step held →
      Awaits step token → decisionOf observation = "proceed" → Accepts step token) :
    Arrived steps (snapshots ++ [new]) later' after := by
  have more : snapshots ⊆ snapshots ++ [new] := List.subset_append_left _ _
  cases onward with
  | along below early =>
    refine ⟨arrived.behind.more more, fun end_ => ?_⟩
    rcases early with all | ended | early | aborted
    · exact .inl all
    · exact (arrived.ended (by omega)).imp_right (·.more more)
    · omega
    · omega
  | @proceeds before step rest _ split passes isNode decides stands awaits still below early =>
    have isStep : step ∈ steps := split ▸ by simp
    rw [isNode] at selected
    refine Passed.arrived ((passes ▸ arrived.behind).next split
      ⟨selected, isToken ▸ stands, isToken ▸ still, ?_⟩) (by omega)
    rw [isToken]
    exact accepts step isStep _ isNode awaits still decides
  | @completes before step rest _ split passes isNode decides stands below =>
    rw [isNode] at selected
    exact ⟨arrived.behind.more more, fun _ => .inr ⟨before, step, rest, split, passes.symm, new,
      List.mem_append_right _ (List.mem_singleton_self _), selected, isToken ▸ stands⟩⟩

end Shown

/-! ### Over a run -/

/-- **The invariant of a run of a scaffold.** -/
structure OnStage (first : ScaffoldStep) (steps : List ScaffoldStep) (s : System) : Prop where
  scaffolded : Scaffolded s.rows.artifact first steps
  grounded : Grounded s
  stored : ∀ (earlier : List Snapshot) (snapshot : Snapshot) (later : List Snapshot),
    s.rows.snapshots = earlier ++ snapshot :: later →
      hasStatus snapshot.token "cancelled" = true ∨ Stored steps (earlier ++ [snapshot]) snapshot.token
  last : s.rows.finished = true ∨ ∀ snapshot, s.rows.lastSnapshot? = some snapshot →
    hasStatus snapshot.token "cancelled" = false
  turns : ∀ attempt turn, s.attempts attempt = .looping turn → ∃ nodes passed,
    Runs steps turn.token nodes passed ∧ Arrived steps s.rows.snapshots nodes passed ∧
      turn.stepsDone ≤ nodes
  won : s.rows.run.status = .succeeded → ∃ passed, Passed steps s.rows.snapshots passed ∧
    (passed = steps.length ∨ CutAfter steps s.rows.snapshots passed)

section Stage

variable {platform : Platform} {s t : System} {e : Event} {first : ScaffoldStep}
  {steps : List ScaffoldStep}

/-- The snapshot a node stores. -/
theorem Commits.snapshot {attempt : Nat} {turn : Turn} {outcome : AgentOutcome} {supply : Supply}
    {node observation charged merged : Json} {shown rows : Rows} {enabled : List String}
    {waits : List WaitMark}
    (commits : Commits platform s attempt turn outcome supply node observation charged merged shown)
    (stored : appendRuntimeStep supply (platform.isoformat s.now) node observation
      (interacted platform s turn node observation merged).token enabled waits shown = some rows) :
    ∃ new, rows.snapshots = s.rows.snapshots ++ [new] ∧ new.selected = some (node.field "id").toStr ∧
      new.token = (interacted platform s turn node observation merged).token :=
  ⟨_, ((append_output_only commits.output).keepsSnapshots.adds (append_step_adds stored)).1, rfl, rfl⟩

/-- **A node of a turn**, as it is stored. -/
theorem node_stored {attempt : Nat} {turn : Turn} {outcome : AgentOutcome} {supply : Supply}
    {node observation charged merged : Json} {shown : Rows} {new : Snapshot} (ok : OnStage first steps s)
    (commits : Commits platform s attempt turn outcome supply node observation charged merged shown)
    (selected : new.selected = some (node.field "id").toStr)
    (isToken : new.token = (interacted platform s turn node observation merged).token) :
    ((interacted platform s turn node observation merged).outcome = .ok false → ∃ nodes passed,
      Runs steps new.token nodes passed ∧ Arrived steps (s.rows.snapshots ++ [new]) nodes passed ∧
        turn.stepsDone + 1 ≤ nodes) ∧
    ((interacted platform s turn node observation merged).outcome = .ok true →
      Stored steps (s.rows.snapshots ++ [new]) new.token) := by
  obtain ⟨nodes, passed, runs, arrived, bounded⟩ := ok.turns _ _ commits.selected.looping
  have leaves := node_leaves ok.scaffolded runs commits
  refine ⟨fun goesOn => ?_, fun waits => ?_⟩
  · obtain ⟨later, after, still, onward⟩ := leaves.goes goesOn
    refine ⟨later, after, isToken ▸ still, onward.arrived arrived selected isToken ?_, ?_⟩
    · rintro step isStep next rfl awaits still decides
      exact evaluate_accepts ok.scaffolded ok.grounded isStep runs.awake awaits commits decides goesOn still
    · have below := onward.below
      omega
  · obtain ⟨before, le, waits, -⟩ := leaves.waits waits
    exact .waits (isToken ▸ waits) ((arrived.behind.fewer le).more (List.subset_append_left _ _))

/-- A token that is recovered waits again. -/
theorem recovered_stored {now error : String} {trace : TraceRef} {event : Option TerminalEvent}
    {token : Json} {passed : Nat} {new : Snapshot} {snapshots : List Snapshot}
    (awaits : AwaitsWithin steps passed token) (behind : Passed steps snapshots passed)
    (recovers : recoverTerminalTurnToken now error trace event token = some new.token) :
    Stored steps (snapshots ++ [new]) new.token := by
  obtain ⟨before, step, rest, split, le, awaits⟩ := awaits
  obtain ⟨stands, still⟩ := recovered_waits awaits recovers
  exact .waits (.held split stands still) ((behind.fewer le).more (List.subset_append_left _ _))

theorem compact_reads (sha256 : String → String) (token : Json) :
    ∀ p ∈ ["control", "wait"] :: stagePaths, (compactRuntimeToken sha256 token).at? p = token.at? p := by
  intro p isPath
  refine (compact_writes sha256 token).read fun q isQ => ?_
  obtain rfl := List.mem_singleton.mp isQ
  revert p
  decide

/-- The last token of a run that goes on stands in the chain. -/
theorem OnStage.lastStored (ok : OnStage first steps s) (unfinished : s.rows.finished = false)
    {snapshot : Snapshot} (isLast : s.rows.lastSnapshot? = some snapshot) :
    Stored steps s.rows.snapshots snapshot.token := by
  obtain ⟨earlier, split⟩ := List.getLast?_eq_some_iff.mp isLast
  have uncancelled : hasStatus snapshot.token "cancelled" = false :=
    ok.last.resolve_left (by rw [unfinished]; exact Bool.false_ne_true) snapshot isLast
  rcases ok.stored earlier snapshot [] split with cancelled | stored
  · rw [uncancelled] at cancelled
    cases cancelled
  · exact split ▸ stored

/-- A failure that can be recovered waits for a step the run came to. -/
theorem Fails.awaits {attempt : Nat} {leased : Bool} {token : Json} {waits : List WaitMark}
    {expected : Nat} {rows : Rows} (ok : OnStage first steps s)
    (fails : Fails platform s attempt e leased token waits expected rows)
    (recoverable : isRecoverable token = true) :
    ∃ passed, AwaitsWithin steps passed token ∧ Passed steps s.rows.snapshots passed := by
  have has : (wait? token).isSome = true := by
    obtain ⟨fs, gs, hs, has, -⟩ := recoverable_wait recoverable
    rw [has]
    rfl
  have held : ∀ {attempt turn}, s.attempts attempt = .looping turn → (wait? turn.token).isSome = true →
      ∃ passed, AwaitsWithin steps passed turn.token ∧ Passed steps s.rows.snapshots passed := by
    intro attempt turn looping has
    obtain ⟨nodes, passed, runs, arrived, -⟩ := ok.turns _ _ looping
    exact ⟨passed, runs.awaits has, arrived.behind⟩
  cases fails with
  | starting _ unfinished last =>
    obtain ⟨passed, staged, behind⟩ := (ok.lastStored unfinished last).staged
    exact ⟨passed, (staged.of_reads (compact_reads _ _)).awaits has, behind⟩
  | looping looping => exact held looping has
  | executing selected => exact held selected.looping has
  | merging selected ran =>
    have writes := execute_node_writes ran
    have reads : ∀ p ∈ ["control", "wait"] :: stagePaths, token.at? p = _ := fun p isPath =>
      writes.read fun q isQ => by
        obtain rfl := List.mem_singleton.mp isQ
        revert p
        decide
    rw [wait?, reads _ List.mem_cons_self] at has
    obtain ⟨passed, awaits, behind⟩ := held selected.looping has
    exact ⟨passed, awaits.of_reads fun p isPath => reads p (List.mem_cons_of_mem _ isPath), behind⟩
  | applying commits =>
    obtain ⟨nodes, passed, runs, arrived, -⟩ := ok.turns _ _ commits.selected.looping
    exact ⟨passed, (node_leaves ok.scaffolded runs commits).fails recoverable, arrived.behind⟩

/-- A step keeps the snapshots of a run, and a finished run stays so, or it stores one in the chain, or
it cancels the run. -/
theorem move_snapshots (ok : OnStage first steps s) (move : Move platform s e t) :
    (t.rows.snapshots = s.rows.snapshots ∧ (s.rows.finished = true → t.rows.finished = true)) ∨
    ∃ new, t.rows.snapshots = s.rows.snapshots ++ [new] ∧
      (hasStatus new.token "cancelled" = true ∧ t.rows.finished = true ∨
        Stored steps (s.rows.snapshots ++ [new]) new.token) := by
  cases move with
  | tick | repeated | claimed | renewed | released | stopped | settled => exact .inl ⟨rfl, id⟩
  | begun _ _ unfinished =>
    exact .inl ⟨rfl, fun finished => absurd finished (by rw [unfinished]; exact Bool.false_ne_true)⟩
  | @appended _ draft rows _ _ unfinished _ stored =>
    exact .inl ⟨(woken_snapshots s.now draft rows).trans (append_event_only stored).snapshots,
      fun finished => absurd finished (by rw [unfinished]; exact Bool.false_ne_true)⟩
  | cancelled _ snapped =>
    have finished : _ = true := cancel_finished snapped
    unfold appendCancelSnapshot at snapped
    split at snapped
    · cases snapped
      exact .inl ⟨rfl, fun _ => finished⟩
    · obtain ⟨token, did, rfl⟩ := Option.map_eq_some_iff.mp snapped
      exact .inr ⟨_, rfl, .inl ⟨cancel_token_status did, finished⟩⟩
  | exhausted _ _ _ _ finalized =>
    exact .inl ⟨(finalize_keeps finalized).1, fun _ => finalize_finished rfl finalized⟩
  | rested _ unfinished _ _ _ waited =>
    exact .inl ⟨(finish_turn_keeps waited).1,
      fun finished => absurd finished (by rw [unfinished]; exact Bool.false_ne_true)⟩
  | recovered fails recoverable _ _ recovered =>
    obtain ⟨new, event, added, -, recovers⟩ := recover_turn_adds recovered
    obtain ⟨passed, awaits, behind⟩ := Fails.awaits ok fails recoverable
    have snapshots := ((fails_keeps_snapshots fails).adds added).1
    exact .inr ⟨new, snapshots, .inr (recovered_stored awaits behind recovers)⟩
  | failed fails _ failed =>
    exact .inl ⟨((fails_keeps_snapshots fails).trans (fail_turn_keeps failed)).1,
      fun _ => fail_turn_finished failed⟩
  | advanced commits goesOn stored =>
    obtain ⟨new, snapshots, selected, isToken⟩ := Commits.snapshot commits stored
    obtain ⟨nodes, passed, runs, arrived, -⟩ := (node_stored ok commits selected isToken).1 goesOn
    exact .inr ⟨new, snapshots, .inr (.runs runs arrived)⟩
  | waited commits waits stored waited =>
    obtain ⟨new, snapshots, selected, isToken⟩ := Commits.snapshot commits stored
    exact .inr ⟨new, (finish_turn_keeps waited).1.trans snapshots,
      .inr ((node_stored ok commits selected isToken).2 waits)⟩
  | aborted _ _ _ exited =>
    exact .inl ⟨(finish_turn_keeps exited).1, fun _ => abort_run_finished exited⟩
  | succeeded _ _ _ exited =>
    exact .inl ⟨(finish_turn_keeps exited).1, fun _ => succeed_run_finished exited⟩
  | halted looping _ halts =>
    -- a turn's token does not wait
    obtain ⟨nodes, passed, runs, -⟩ := ok.turns _ _ looping
    rw [ok.scaffolded.halts_wait, runs.awake] at halts
    cases halts

/-- A turn of a run that goes on. -/
theorem move_turns (ok : OnStage first steps s) (move : Move platform s e t) :
    ∀ attempt turn, t.attempts attempt = .looping turn → ∃ nodes passed,
      Runs steps turn.token nodes passed ∧ Arrived steps t.rows.snapshots nodes passed ∧
        turn.stepsDone ≤ nodes := by
  have more : s.rows.snapshots ⊆ t.rows.snapshots := by
    rcases move_snapshots ok move with ⟨same, -⟩ | ⟨new, same, -⟩
    · rw [same]
      exact List.Subset.refl _
    · rw [same]
      exact List.subset_append_left _ _
  have old : ∀ {attempt turn}, s.attempts attempt = .looping turn → ∃ nodes passed,
      Runs steps turn.token nodes passed ∧ Arrived steps t.rows.snapshots nodes passed ∧
        turn.stepsDone ≤ nodes := by
    intro attempt turn looping
    obtain ⟨nodes, passed, runs, arrived, bounded⟩ := ok.turns _ _ looping
    exact ⟨nodes, passed, runs, arrived.more more, bounded⟩
  cases move with
  | tick | repeated | appended | cancelled | renewed | released | exhausted => exact fun _ _ => old
  | stopped | claimed => exact fun _ _ looping => old (turns_of_set looping (by simp))
  | settled | rested | recovered | failed | waited | aborted | succeeded | halted =>
    exact fun _ _ looping => old (ended_turns _ _ looping)
  | begun _ _ unfinished last _ sync awake =>
    intro other turn looping
    rcases looping_of_set looping with new | before
    · obtain rfl := Attempt.looping.inj new
      cases ok.lastStored unfinished last with
      | runs runs arrived =>
        have runs := runs.of_reads (compact_reads platform.sha256 _)
        exact ⟨_, _, runs.synced sync ▸ runs, arrived, Nat.zero_le _⟩
      | waits waits behind =>
        obtain ⟨le, runs⟩ := (waits.of_reads (compact_reads platform.sha256 _)).synced sync awake
        exact ⟨_, _, runs, behind.arrived (by omega), Nat.zero_le _⟩
    · exact old before
  | advanced commits goesOn stored =>
    intro other turn looping
    rcases looping_of_set looping with new | before
    · obtain rfl := Attempt.looping.inj new
      obtain ⟨added, snapshots, selected, isToken⟩ := Commits.snapshot commits stored
      obtain ⟨nodes, passed, runs, arrived, bounded⟩ :=
        (node_stored ok commits selected isToken).1 goesOn
      refine ⟨nodes, passed, isToken ▸ runs, ?_, bounded⟩
      exact snapshots ▸ arrived
    · exact old before

/-- A run that succeeded had its final output, or takes it from the token of its turn. -/
theorem move_won (move : Move platform s e t) (succeeded : t.rows.run.status = .succeeded) :
    (s.rows.run.status = .succeeded ∧ t.rows.run.finalOutput = s.rows.run.finalOutput) ∨
    ∃ attempt turn, s.attempts attempt = .looping turn ∧
      haltSuccess s.rows.artifact turn.token = true ∧
      t.rows.run.finalOutput = (turn.token.getPath "outputs.final_response").strOr := by
  have ongoing : ∀ {rows : Rows}, rows.finished = false → rows.run.status ≠ .succeeded := by
    intro rows isOpen was
    rw [Rows.finished, was] at isOpen
    cases isOpen
  cases move with
  | tick | repeated | claimed | renewed | released | stopped | settled => exact .inl ⟨succeeded, rfl⟩
  | @appended _ draft rows _ _ _ _ stored =>
    obtain ⟨latest, events, rfl⟩ := append_event_only stored
    rw [show (answer draft _ (s.withRows (woken s.now draft _))).rows.run = _ from woken_seq ..]
      at succeeded ⊢
    exact .inl ⟨succeeded, rfl⟩
  | cancelled _ snapped =>
    unfold appendCancelSnapshot at snapped
    split at snapped
    · cases snapped
      cases succeeded
    · obtain ⟨token, -, rfl⟩ := Option.map_eq_some_iff.mp snapped
      cases succeeded
  | exhausted _ _ _ _ finalized =>
    unfold Rows.finalizeExhaustedJob at finalized
    simp only at finalized
    split at finalized
    · cases finalized
      exact .inl ⟨succeeded, rfl⟩
    · obtain ⟨⟨appended, event⟩, was, rfl⟩ := Option.map_eq_some_iff.mp finalized
      have kept : appended.run.status = .failed := (append_if_open_only was).keeps.status
      cases kept.symm.trans succeeded
  | begun => cases succeeded
  | rested _ _ _ _ _ waited | waited _ _ _ waited | halted _ _ _ waited =>
    exact absurd succeeded (ongoing (wait_turn_unfinished waited))
  | recovered _ _ _ _ recovered =>
    exact absurd succeeded (ongoing (recover_turn_unfinished recovered))
  | failed _ _ failed => cases (fail_turn_status failed).symm.trans succeeded
  | advanced commits _ stored =>
    obtain ⟨latest, events, rfl⟩ := append_output_only commits.output
    obtain ⟨latest', events', rfl⟩ := append_step_only stored
    exact .inl ⟨succeeded, rfl⟩
  | aborted _ _ _ exited => cases (abort_run_status exited).symm.trans succeeded
  | succeeded looping _ halts exited => 
    unfold succeedRun at exited
    exact .inr ⟨_, _, looping, halts, congrArg RunRow.finalOutput (finish_turn_run exited).1⟩

/-- A token that halts with success stands at its end. -/
theorem Runs.ended {token : Json} {nodes passed : Nat} (runs : Runs steps token nodes passed)
    (scaffolded : Scaffolded s.rows.artifact first steps)
    (halts : haltSuccess s.rows.artifact token = true) : Stands "success" "completed" token := by
  rw [scaffolded.halts_success] at halts
  cases runs with
  | completed stands => exact stands
  | start stands | instruct _ stands | evaluate _ stands | verify _ stands | terminal stands
  | aborted stands =>
    rw [stands.status] at halts
    exact absurd halts (by decide)

theorem Runs.won {token : Json} {nodes passed : Nat} (runs : Runs steps token nodes passed)
    (scaffolded : Scaffolded s.rows.artifact first steps)
    (halts : haltSuccess s.rows.artifact token = true) : nodes = 2 * steps.length + 3 :=
  runs.last (runs.ended scaffolded halts)

/-- A place in a list that has grown by one is the new one, or one of before. -/
theorem split_last {α : Type*} {xs earlier later : List α} {x new : α}
    (split : xs ++ [new] = earlier ++ x :: later) :
    earlier = xs ∧ x = new ∧ later = [] ∨
      ∃ between, later = between ++ [new] ∧ xs = earlier ++ x :: between := by
  rcases List.eq_nil_or_concat later with rfl | ⟨between, last, rfl⟩
  · obtain ⟨rfl, same⟩ := List.append_inj' split rfl
    exact .inl ⟨rfl, (List.singleton_inj.mp same).symm, rfl⟩
  · rw [List.concat_eq_append, ← List.cons_append, ← List.append_assoc] at split
    obtain ⟨rfl, same⟩ := List.append_inj' split rfl
    exact .inr ⟨between, by rw [List.concat_eq_append, List.singleton_inj.mp same], rfl⟩

/-- **A step keeps a run of a scaffold on its stages.** -/
theorem move_on_stage (ok : OnStage first steps s) (move : Move platform s e t) :
    OnStage first steps t := by
  have artifact := (move_grows move).artifact
  have scaffolded : Scaffolded t.rows.artifact first steps := artifact ▸ ok.scaffolded
  have snapshots := move_snapshots ok move
  have more : s.rows.snapshots ⊆ t.rows.snapshots := by
    rcases snapshots with ⟨same, -⟩ | ⟨new, same, -⟩
    · rw [same]
      exact List.Subset.refl _
    · rw [same]
      exact List.subset_append_left _ _
  refine ⟨scaffolded, move_grounded ok.grounded move, ?_, ?_, move_turns ok move, fun succeeded => ?_⟩
  · intro earlier snapshot later split
    rcases snapshots with ⟨same, -⟩ | ⟨new, same, is⟩
    · exact ok.stored earlier snapshot later (same ▸ split)
    · rcases split_last (same.symm.trans split) with ⟨rfl, rfl, -⟩ | ⟨between, -, old⟩
      · exact is.imp_left And.left
      · exact ok.stored earlier snapshot between old
  · rcases snapshots with ⟨same, stays⟩ | ⟨new, same, ⟨-, finished⟩ | stored⟩
    · refine ok.last.imp stays fun uncancelled snapshot isLast => uncancelled snapshot ?_
      rw [← isLast, Rows.lastSnapshot?, Rows.lastSnapshot?, same]
    · exact .inl finished
    · refine .inr fun snapshot isLast => ?_
      obtain rfl := Option.some.inj ((last_of_append same).symm.trans isLast)
      exact stored.uncancelled
  · rcases move_won move succeeded with ⟨was, -⟩ | ⟨attempt, turn, looping, halts, -⟩
    · obtain ⟨passed, behind, ended⟩ := ok.won was
      exact ⟨passed, behind.more more, ended.imp_right (·.more more)⟩
    · obtain ⟨nodes, passed, runs, arrived, -⟩ := ok.turns _ _ looping
      exact ⟨passed, arrived.behind.more more,
        (arrived.ended (.inr (runs.won ok.scaffolded halts))).imp_right (·.more more)⟩

theorem created_on_stage {artifact : Json} (scaffolded : Scaffolded artifact first steps)
    (runId : String) (maxAttempts now : Nat) :
    OnStage first steps (created artifact runId maxAttempts now) := by
  have stands : Stands "running" "start" (buildInitialToken (obj []) artifact) := by
    refine ⟨rfl, ?_⟩
    rw [← scaffolded.entry]
    rfl
  have none_ : Passed steps [] 0 := fun _ _ _ _ below => absurd below (Nat.not_lt_zero _)
  refine ⟨scaffolded, created_grounded scaffolded.leaves runId maxAttempts now, ?_, ?_, ?_, ?_⟩
  · intro earlier snapshot later split
    have stored : snapshot.token = buildInitialToken (obj []) artifact := by
      have isIn : snapshot ∈ earlier ++ snapshot :: later := by simp
      rw [← split] at isIn
      rw [List.mem_singleton.mp isIn]
    rw [stored]
    exact .inr (.runs (.start stands rfl) ((none_.more (List.nil_subset _)).arrived (Nat.zero_le _)))
  · refine .inr fun snapshot isLast => ?_
    obtain rfl := Option.some.inj isLast
    exact (stands.is _).trans rfl
  · intro attempt turn looping
    cases looping
  · intro succeeded
    cases succeeded

theorem run_on_stage {artifact : Json} {runId : String} {maxAttempts now : Nat}
    (scaffolded : Scaffolded artifact first steps)
    (run : Run (step platform) anyStep (created artifact runId maxAttempts now) t) :
    OnStage first steps t :=
  run.invariant (fun _ _ _ ok _ stepped => move_on_stage ok (step_move stepped))
    (created_on_stage scaffolded runId maxAttempts now)

end Stage

/-! ### What a run never does -/

/-- The stored artifact of a scaffold of submitted steps. -/
structure ScaffoldOf (raw : List Json) (input : ScaffoldInput) (steps : List ScaffoldStep)
    (artifact : Json) : Prop where
  normalized : normalizeScaffoldSteps raw = .ok steps
  stored : ∃ candidate, scaffoldArtifact input steps = some candidate ∧
    accepted candidate = some artifact

theorem ScaffoldOf.scaffolded {raw : List Json} {input : ScaffoldInput} {steps : List ScaffoldStep}
    {artifact : Json} (of : ScaffoldOf raw input steps artifact) :
    ∃ first, Scaffolded artifact first steps := by
  obtain ⟨candidate, built, stored⟩ := of.stored
  exact accepted_scaffolded of.normalized built stored

/-- The transitions of a node lead to nodes. -/
def LeadsOn (artifact node : Json) : Prop :=
  isEvaluation node = true → ∀ decision ∈ leavingDecisions,
    resolveEvaluationTransition artifact node decision ∈ artifactNodeIds artifact

/-- What a turn finds at its token: the end of the run, or one node to run. -/
inductive Finds (platform : Platform) (t : System) (attempt : Nat) (turn : Turn)
    (outcome : AgentOutcome) (supply : Supply) : Prop
  | aborts (halts : haltAborted t.rows.artifact turn.token = true)
      (goes : turnStep platform attempt turn outcome supply t =
        exitTurn attempt turn.leased (abortRun t.now turn.token) t) :
      Finds platform t attempt turn outcome supply
  | succeeds (halts : haltSuccess t.rows.artifact turn.token = true)
      (goes : turnStep platform attempt turn outcome supply t =
        exitTurn attempt turn.leased (succeedRun t.now turn.token) t) :
      Finds platform t attempt turn outcome supply
  | runs (node : Json) (only : enabledNodes t.rows.artifact turn.token = [node])
      (goes : turnStep platform attempt turn outcome supply t =
        runNode platform attempt turn node outcome supply t)
      (leads : LeadsOn t.rows.artifact node) : Finds platform t attempt turn outcome supply

/-- A round of the loop less its two failures for want of steps and of nodes. -/
def turnOn (platform : Platform) (attempt : Nat) (turn : Turn) (outcome : AgentOutcome) (supply : Supply)
    (s : System) : Option System :=
  if haltAborted s.rows.artifact turn.token then
    exitTurn attempt turn.leased (abortRun s.now turn.token) s
  else if haltSuccess s.rows.artifact turn.token then
    exitTurn attempt turn.leased (succeedRun s.now turn.token) s
  else
    (enabledNodes s.rows.artifact turn.token).head?.bind fun node =>
      runNode platform attempt turn node outcome supply s

section Runs

variable {platform : Platform} {t : System} {first : ScaffoldStep} {steps : List ScaffoldStep}

theorem scaffold_priority (firstId : String) (steps : List ScaffoldStep) :
    ∀ node ∈ scaffoldNodes firstId steps, (nodePriority node).isSome = true :=
  scaffold_nodes firstId steps rfl (fun _ _ _ => rfl) (fun _ _ _ => rfl) rfl rfl

/-- A running token that has not come to its end stands at a node. -/
theorem Runs.at_node {artifact token : Json} {nodes passed : Nat} (runs : Runs steps token nodes passed)
    (scaffolded : Scaffolded artifact first steps) (going : hasStatus token "running" = true) :
    ∃ node ∈ scaffoldNodes first.id steps, token.at? ["phase"] = some (str (nodeId node)) ∧
      LeadsOn artifact node := by
  cases runs with
  | start stands =>
    refine ⟨_, List.mem_cons_self, stands.phase, fun evaluates => ?_⟩
    rw [start_plain] at evaluates
    cases evaluates
  | @instruct before step rest split stands =>
    refine ⟨_, mem_of_steps (split ▸ (step_nodes_mem true before step rest).1), ?_, fun evaluates => ?_⟩
    · rw [instruct_nodeId]
      exact stands.phase
    · rw [instruct_plain] at evaluates
      cases evaluates
  | @evaluate before step rest split stands =>
    refine ⟨_, mem_of_steps (split ▸ (step_nodes_mem true before step rest).2), ?_,
      fun _ decision leaves => ?_⟩
    · rw [evaluate_nodeId]
      exact stands.phase
    · have declared : (interaction (evaluateNode step (nextPhase rest))).field "transitions" = obj
          [("proceed", str (nextPhase rest)), ("complete", str "terminal"), ("abort", str "terminal")] :=
        rfl
      obtain ⟨leads, isNode⟩ := scaffolded.resolves (scaffolded.next_mem split)
        (scaffolded.next_spaceless split) declared leaves
      exact leads ▸ isNode
  | verify _ stands =>
    refine ⟨_, final_mem, stands.phase, fun _ decision leaves => ?_⟩
    have declared : (interaction finalVerifyNode).field "transitions" =
        obj [("proceed", str "terminal"), ("complete", str "terminal"), ("abort", str "terminal")] := rfl
    obtain ⟨leads, isNode⟩ := scaffolded.resolves
      (scaffolded.ids "terminal" (by simp [scaffoldIds]) (by decide)) (spaceless_of_all (by decide))
      declared leaves
    exact leads ▸ isNode
  | terminal stands => exact ⟨_, terminal_mem, stands.phase, fun evaluates => by cases evaluates⟩
  | completed stands | aborted stands =>
    rw [stands.is] at going
    cases going

theorem select_one {node : Json} (priced : (nodePriority node).isSome = true) :
    selectNode [node] = some node := by
  obtain ⟨priority, isPriority⟩ := Option.isSome_iff_exists.mp priced
  simp [selectNode, isPriority]

/-- A token that does not halt enables one node. -/
theorem Runs.enabled {token : Json} {nodes passed : Nat} (runs : Runs steps token nodes passed)
    (scaffolded : Scaffolded t.rows.artifact first steps)
    (unaborted : haltAborted t.rows.artifact token = false)
    (unfinished : haltSuccess t.rows.artifact token = false) :
    ∃ node, enabledNodes t.rows.artifact token = [node] ∧ (nodePriority node).isSome = true ∧
      LeadsOn t.rows.artifact node ∧ token.at? ["phase"] = some (str (nodeId node)) := by
  rw [scaffolded.halts_aborted] at unaborted
  rw [scaffolded.halts_success] at unfinished
  have going : hasStatus token "running" = true := by
    cases runs with
    | start stands | instruct _ stands | evaluate _ stands | verify _ stands | terminal stands =>
      exact (stands.is _).trans rfl
    | completed stands =>
      rw [stands.status] at unfinished
      cases unfinished
    | aborted stands =>
      rw [stands.is] at unaborted
      cases unaborted
  obtain ⟨node, isNode, phase, leads⟩ := runs.at_node scaffolded going
  exact ⟨node, scaffolded.enabled isNode phase, scaffold_priority _ _ node isNode, leads, phase⟩

/-- **A turn of a scaffold** has steps left, and its round goes on. -/
theorem OnStage.goes_on {attempt : Nat} {turn : Turn} (ok : OnStage first steps t)
    (looping : t.attempts attempt = .looping turn) :
    (∃ maxSteps, maxSteps? t.rows.artifact = some maxSteps ∧ (turn.stepsDone : Int) < maxSteps) ∧
    (haltAborted t.rows.artifact turn.token = false → haltSuccess t.rows.artifact turn.token = false →
      ∃ node, enabledNodes t.rows.artifact turn.token = [node] ∧ LeadsOn t.rows.artifact node) ∧
    ∀ outcome supply, turnStep platform attempt turn outcome supply t =
      turnOn platform attempt turn outcome supply t := by
  obtain ⟨nodes, passed, runs, -, done⟩ := ok.turns _ _ looping
  have below : (turn.stepsDone : Int) < max 10 (2 * (steps.length : Int) + 6) := by
    have bounded := runs.bounded
    omega
  refine ⟨⟨_, ok.scaffolded.bound, below⟩, fun unaborted unfinished => ?_, fun outcome supply => ?_⟩
  · obtain ⟨node, only, -, leads, -⟩ := runs.enabled ok.scaffolded unaborted unfinished
    exact ⟨node, only, leads⟩
  rw [turnStep, ok.scaffolded.bound, turnOn]
  simp only [if_neg (Int.not_le.mpr below)]
  by_cases aborts : haltAborted t.rows.artifact turn.token = true
  · rw [if_pos aborts, if_pos aborts]
  by_cases succeeds : haltSuccess t.rows.artifact turn.token = true
  · rw [if_neg aborts, if_neg aborts, if_pos succeeds, if_pos succeeds]
  obtain ⟨node, only, priced, -⟩ := runs.enabled ok.scaffolded (Bool.eq_false_iff.mpr aborts)
    (Bool.eq_false_iff.mpr succeeds)
  simp only [if_neg aborts, if_neg succeeds, only, select_one priced, List.head?_cons, Option.bind_some]

/-- **What a turn finds.** -/
theorem turn_finds {attempt : Nat} {turn : Turn} (ok : OnStage first steps t)
    (looping : t.attempts attempt = .looping turn) (outcome : AgentOutcome) (supply : Supply) :
    ∃ maxSteps, maxSteps? t.rows.artifact = some maxSteps ∧ (turn.stepsDone : Int) < maxSteps ∧
      Finds platform t attempt turn outcome supply := by
  obtain ⟨⟨maxSteps, bound, below⟩, enables, goes⟩ := @OnStage.goes_on platform _ _ _ _ _ ok looping
  refine ⟨maxSteps, bound, below, ?_⟩
  by_cases aborts : haltAborted t.rows.artifact turn.token = true
  · refine .aborts aborts ?_
    rw [goes, turnOn, if_pos aborts]
  by_cases succeeds : haltSuccess t.rows.artifact turn.token = true
  · refine .succeeds succeeds ?_
    rw [goes, turnOn, if_neg aborts, if_pos succeeds]
  obtain ⟨node, only, leads⟩ := enables (Bool.eq_false_iff.mpr aborts) (Bool.eq_false_iff.mpr succeeds)
  refine .runs node only ?_ leads
  rw [goes, turnOn, if_neg aborts, if_neg succeeds, only]
  rfl

/-- A token is at a step: it is instructed or evaluated there, or waits for it. -/
inductive AtStep (step : ScaffoldStep) (token : Json) : Prop
  | instructed (stands : Stands "running" (instructId step.id) token) : AtStep step token
  | evaluated (stands : Stands "running" (evaluateId step.id) token) : AtStep step token
  | asked (stands : Stands "waiting" "waiting" token) (awaits : Awaits step token) : AtStep step token

/-- An id has one place among the steps. -/
theorem place_of_step (distinct : (steps.map ScaffoldStep.id).Nodup)
    {before before' rest rest' : List ScaffoldStep} {step step' : ScaffoldStep}
    (split : steps = before ++ step :: rest) (split' : steps = before' ++ step' :: rest')
    (same : step'.id = step.id) : before'.length = before.length := by
  have at_ : ∀ {before rest : List ScaffoldStep} {step : ScaffoldStep},
      steps = before ++ step :: rest → (steps.map ScaffoldStep.id)[before.length]? = some step.id := by
    rintro before rest step rfl
    simp
  have within : before'.length < (steps.map ScaffoldStep.id).length := by
    rw [split']
    simp
  refine (List.getElem?_inj within distinct).mp ?_
  rw [at_ split, at_ split', same]

/-- A running token at a step has passed the steps before it. -/
theorem Runs.place {token : Json} {nodes passed : Nat} {before rest : List ScaffoldStep}
    {step : ScaffoldStep} (runs : Runs steps token nodes passed)
    (distinct : (steps.map ScaffoldStep.id).Nodup) (split : steps = before ++ step :: rest)
    (phase : token.at? ["phase"] = some (str (instructId step.id)) ∨
      token.at? ["phase"] = some (str (evaluateId step.id))) : passed = before.length := by
  have is : ∀ {name : String}, token.at? ["phase"] = some (str name) →
      name = instructId step.id ∨ name = evaluateId step.id := fun named =>
    phase.imp (fun other => Json.str.inj (Option.some.inj (named.symm.trans other)))
      fun other => Json.str.inj (Option.some.inj (named.symm.trans other))
  have fixed : ∀ name ∈ ["start", "final_verify", "terminal", "completed", "aborted"],
      token.at? ["phase"] ≠ some (str name) := by
    have heads : ∀ name ∈ ["start", "final_verify", "terminal", "completed", "aborted"],
        name.toList.head? ≠ some 'i' ∧ name.toList.head? ≠ some 'e' := by decide
    intro name isFixed named
    rcases is named with rfl | rfl
    · exact (heads _ isFixed).1 (instructId_head _)
    · exact (heads _ isFixed).2 (evaluateId_head _)
  cases runs with
  | instruct split' stands =>
    refine place_of_step distinct split split' ((is stands.phase).elim instructId_inj fun same => ?_)
    exact absurd same (instruct_ne_evaluate _ _)
  | evaluate split' stands =>
    refine place_of_step distinct split split' ((is stands.phase).elim (fun same => ?_) evaluateId_inj)
    exact absurd same.symm (instruct_ne_evaluate _ _)
  | start stands | verify _ stands | terminal stands | completed stands | aborted stands =>
    exact absurd stands.phase (fixed _ (by simp))

/-- A token at a step has come there past the steps before it. -/
theorem Stored.before {token : Json} {snapshots : List Snapshot} {before rest : List ScaffoldStep}
    {step : ScaffoldStep} (stored : Stored steps snapshots token)
    (distinct : (steps.map ScaffoldStep.id).Nodup) (split : steps = before ++ step :: rest)
    (atStep : AtStep step token) : Passed steps snapshots before.length := by
  cases stored with
  | runs runs arrived =>
    cases atStep with
    | instructed stands => exact runs.place distinct split (.inl stands.phase) ▸ arrived.behind
    | evaluated stands => exact runs.place distinct split (.inr stands.phase) ▸ arrived.behind
    | asked stands =>
      have awake := runs.awake
      rw [stands.is] at awake
      cases awake
  | waits waits behind =>
    cases waits with
    | held split' waiting awaits =>
    cases atStep with
    | instructed stands | evaluated stands =>
      have same := waiting.status.symm.trans stands.status
      exact absurd (Json.str.inj (Option.some.inj same)) (by decide)
    | asked _ awaits' =>
      have same := awaits.named.symm.trans awaits'.named
      have place := place_of_step distinct split split' (Json.str.inj (Option.some.inj same))
      exact place ▸ behind

/-- A token at the final check has passed every step. -/
theorem Stored.verified {token : Json} {snapshots : List Snapshot}
    (stored : Stored steps snapshots token) (atCheck : Stands "running" "final_verify" token) :
    Passed steps snapshots steps.length := by
  have other : ∀ {status phase : String}, Stands status phase token → phase = "final_verify" :=
    fun stands => Json.str.inj (Option.some.inj (stands.phase.symm.trans atCheck.phase))
  cases stored with
  | runs runs arrived =>
    cases runs with
    | verify => exact arrived.behind
    | @instruct before step rest _ stands =>
      have head := instructId_head step.id
      rw [other stands] at head
      exact absurd head (by decide)
    | @evaluate before step rest _ stands =>
      have head := evaluateId_head step.id
      rw [other stands] at head
      exact absurd head (by decide)
    | start stands | terminal stands | completed stands | aborted stands =>
      exact absurd (other stands) (by decide)
  | waits waits =>
    cases waits with
    | held _ waiting => exact absurd (other waiting) (by decide)

/-- **A run of a scaffold is never stuck**: a turn has steps left, and it finds a token that ends the run
or exactly one node to run, whose decisions all lead to nodes. -/
theorem never_stuck {raw : List Json} {input : ScaffoldInput} {artifact : Json} {runId : String}
    {maxAttempts now : Nat} (of : ScaffoldOf raw input steps artifact)
    (run : Run (step platform) anyStep (created artifact runId maxAttempts now) t) :
    ∀ attempt turn, t.attempts attempt = .looping turn → ∀ outcome supply,
      ∃ maxSteps, maxSteps? t.rows.artifact = some maxSteps ∧ (turn.stepsDone : Int) < maxSteps ∧
        Finds platform t attempt turn outcome supply := by
  obtain ⟨first, scaffolded⟩ := of.scaffolded
  intro attempt turn looping outcome supply
  exact turn_finds (run_on_stage scaffolded run) looping outcome supply

/-- **A turn of a scaffold goes on**: where its token does not halt one node is enabled, whose decisions all
lead to nodes, and no round fails for want of steps or of nodes. -/
theorem turns_go_on {raw : List Json} {input : ScaffoldInput} {artifact : Json} {runId : String}
    {maxAttempts now : Nat} (of : ScaffoldOf raw input steps artifact)
    (run : Run (step platform) anyStep (created artifact runId maxAttempts now) t) :
    ∀ attempt turn, t.attempts attempt = .looping turn →
      (haltAborted t.rows.artifact turn.token = false →
        haltSuccess t.rows.artifact turn.token = false →
          ∃ node, enabledNodes t.rows.artifact turn.token = [node] ∧ LeadsOn t.rows.artifact node) ∧
      ∀ outcome supply, turnStep platform attempt turn outcome supply t =
        turnOn platform attempt turn outcome supply t := by
  obtain ⟨first, scaffolded⟩ := of.scaffolded
  intro attempt turn looping
  exact ((run_on_stage scaffolded run).goes_on looping).2

/-- **The steps of a scaffold are taken in order**: where a stored token is at a step, each step before
it was passed, and all of them at the final check, by evaluations stored no later. -/
theorem steps_in_order {raw : List Json} {input : ScaffoldInput} {artifact : Json} {runId : String}
    {maxAttempts now : Nat} (of : ScaffoldOf raw input steps artifact)
    (run : Run (step platform) anyStep (created artifact runId maxAttempts now) t) :
    ∀ earlier snapshot later, t.rows.snapshots = earlier ++ snapshot :: later →
      (∀ before step rest, steps = before ++ step :: rest → AtStep step snapshot.token →
        Passed steps (earlier ++ [snapshot]) before.length) ∧
      (Stands "running" "final_verify" snapshot.token →
        Passed steps (earlier ++ [snapshot]) steps.length) := by
  obtain ⟨first, scaffolded⟩ := of.scaffolded
  intro earlier snapshot later stored
  rcases (run_on_stage scaffolded run).stored earlier snapshot later stored with cancelled | inChain
  · refine ⟨fun before step rest _ atStep => ?_, fun stands => ?_⟩
    · cases atStep with
      | instructed stands | evaluated stands | asked stands =>
        rw [stands.is] at cancelled
        cases cancelled
    · rw [stands.is] at cancelled
      cases cancelled
  · exact ⟨fun before step rest split atStep => inChain.before scaffolded.distinct split atStep,
      inChain.verified⟩

/-- **The gate of a run**: a run that succeeded has passed every step, each over a ledger that accepts
what the step requires on inputs of the run, or the evaluation of a step completed it. -/
theorem success_gated {raw : List Json} {input : ScaffoldInput} {artifact : Json} {runId : String}
    {maxAttempts now : Nat} (of : ScaffoldOf raw input steps artifact)
    (run : Run (step platform) anyStep (created artifact runId maxAttempts now) t)
    (succeeded : t.rows.run.status = .succeeded) :
    (∀ before step rest, steps = before ++ step :: rest → ∃ snapshot ∈ t.rows.snapshots,
      Passes step (nextPhase rest) snapshot ∧
        ∀ entry ∈ ledgerEntries snapshot.token, Proven t.rows.events snapshot.token entry) ∨
    Cut steps t.rows.snapshots := by
  obtain ⟨first, scaffolded⟩ := of.scaffolded
  have ok := run_on_stage scaffolded run
  obtain ⟨count, behind, ended⟩ := ok.won succeeded
  refine (ended.imp_right CutAfter.cut).imp_left fun all before step rest split => ?_
  obtain ⟨snapshot, stored, passes⟩ := behind before step rest split (by
    rw [all, split, List.length_append, List.length_cons]
    omega)
  exact ⟨snapshot, stored, passes, ((ok.grounded.snapshots snapshot stored).rounds passes.awaits.has).proven⟩

/-- **The evidence gate**: a run that succeeded has passed every step, each over a ledger that accepts what
the step requires, or every step before the one whose evaluation completed it. -/
theorem evidence_gated {raw : List Json} {input : ScaffoldInput} {artifact : Json} {runId : String}
    {maxAttempts now : Nat} (of : ScaffoldOf raw input steps artifact)
    (run : Run (step platform) anyStep (created artifact runId maxAttempts now) t)
    (succeeded : t.rows.run.status = .succeeded) :
    ∃ count, Passed steps t.rows.snapshots count ∧
      (count = steps.length ∨ CutAfter steps t.rows.snapshots count) := by
  obtain ⟨first, scaffolded⟩ := of.scaffolded
  exact (run_on_stage scaffolded run).won succeeded

end Runs

/-! ### A run of the small scaffold -/

/-- The final check of the small scaffold, over the input of its step. -/
def brewChecked : AgentOutcome :=
  .observed "agent-run" {}
    { nodeId := "final_verify", decision := .continue_, terminalMessage := "All done."
      evidenceAssessment :=
        { evaluatedEventRefs := ["terminal_event:2"]
          requirementResults := [{ requirementKey := "site_state", status := .accepted
                                   eventRefs := ["terminal_event:2"], satisfiedBy := "text_2" }] } }

/-- The second attempt evaluates the step. -/
def brewEvaluated : List Event :=
  brewTurns ++ [Event.claim 2 100, .begin 2 true (plainSupply "4"),
    .turn 2 (brewVerdict .continue_) (plainSupply "5")]

/-- And brings the run to its end. -/
def brewServed : List Event :=
  [.turn 2 brewChecked (plainSupply "6"), .turn 2 .timedOut (plainSupply "7"),
    .turn 2 .timedOut (plainSupply "8")]

theorem at_of_text {j : Json} {path : List String} {s : String}
    (text : (j.at? path).bind str? = some s) : j.at? path = some (str s) := by
  obtain ⟨own, read, isText⟩ := Option.bind_eq_some_iff.mp text
  cases own with
  | str own => exact read.trans (congrArg (some ∘ str) (Option.some.inj isText))
  | null | bool | num | arr | obj => cases isText

/-- A token in the final check. -/
def isChecking (snapshot : Snapshot) : Bool :=
  (snapshot.token.at? ["status"]).bind str? == some "running" &&
    (snapshot.token.at? ["phase"]).bind str? == some "final_verify"

theorem is_checking_spec {snapshot : Snapshot} (checking : isChecking snapshot = true) :
    Stands "running" "final_verify" snapshot.token := by
  obtain ⟨status, phase⟩ := Bool.and_eq_true_iff.mp checking
  exact ⟨at_of_text (beq_iff_eq.mp status), at_of_text (beq_iff_eq.mp phase)⟩

/-- The run of the small scaffold at its final check, and at its end. -/
theorem brew_run :
    ∃ artifact t u turn snapshot, ScaffoldOf [submittedStep "brew"] brewInput [brewStep] artifact ∧
      Run (step plainPlatform) anyStep (created artifact "run-1" 3 0) t ∧
      t.attempts 2 = .looping turn ∧ t.rows.lastSnapshot? = some snapshot ∧
      Stands "running" "final_verify" snapshot.token ∧ Run (step plainPlatform) anyStep t u ∧
      u.rows.run.status = .succeeded := by
  obtain ⟨artifact, ⟨t, u⟩, stored, ran, passes⟩ := checked_run (show
    ((accepted (obj (scaffoldFields brewInput brewStep.id [brewStep]))).bind fun artifact =>
      (follow (step plainPlatform) anyStep (created artifact "run-1" 3 0) brewEvaluated).bind fun t =>
        (follow (step plainPlatform) anyStep t brewServed).map fun u => (t, u)).any
      (fun states => (states.1.attempts 2).turn?.isSome && states.1.rows.lastSnapshot?.any isChecking &&
        decide (states.2.rows.run.status = .succeeded)) = true by decide +kernel)
  obtain ⟨isT, evaluated, ran⟩ := Option.bind_eq_some_iff.mp ran
  obtain ⟨isU, served, same⟩ := Option.map_eq_some_iff.mp ran
  obtain ⟨rfl, rfl⟩ : isT = t ∧ isU = u := Prod.mk.inj same
  simp only [Bool.and_eq_true, decide_eq_true_eq] at passes
  obtain ⟨⟨begun, checks⟩, succeeded⟩ := passes
  obtain ⟨turn, isTurn⟩ := Option.isSome_iff_exists.mp begun
  obtain ⟨snapshot, isLast, checking⟩ := (Option.any_eq_true ..).mp checks
  exact ⟨artifact, isT, isU, turn, snapshot, ⟨submitted_brew, _, rfl, stored⟩, run_of_follow evaluated,
    Attempt.looping_of_turn isTurn, isLast, is_checking_spec checking, run_of_follow served, succeeded⟩

/-- The second attempt finds the final check to run. -/
theorem never_stuck_brewing :
    ∃ artifact t turn, ScaffoldOf [submittedStep "brew"] brewInput [brewStep] artifact ∧
      Run (step plainPlatform) anyStep (created artifact "run-1" 3 0) t ∧
      t.attempts 2 = .looping turn ∧ Finds plainPlatform t 2 turn brewChecked (plainSupply "6") := by
  obtain ⟨artifact, t, -, turn, -, of, run, looping, -⟩ := brew_run
  obtain ⟨maxSteps, -, -, finds⟩ := never_stuck of run 2 turn looping brewChecked (plainSupply "6")
  exact ⟨artifact, t, turn, of, run, looping, finds⟩

/-- The second attempt goes on from there. -/
theorem turns_go_on_brewing :
    ∃ artifact t turn, ScaffoldOf [submittedStep "brew"] brewInput [brewStep] artifact ∧
      Run (step plainPlatform) anyStep (created artifact "run-1" 3 0) t ∧
      t.attempts 2 = .looping turn ∧
      turnStep plainPlatform 2 turn brewChecked (plainSupply "6") t =
        turnOn plainPlatform 2 turn brewChecked (plainSupply "6") t := by
  obtain ⟨artifact, t, -, turn, -, of, run, looping, -⟩ := brew_run
  exact ⟨artifact, t, turn, of, run, looping, (turns_go_on of run 2 turn looping).2 _ _⟩

/-- The step was passed when the run comes to its final check. -/
theorem steps_in_order_brewing :
    ∃ artifact t, ScaffoldOf [submittedStep "brew"] brewInput [brewStep] artifact ∧
      Run (step plainPlatform) anyStep (created artifact "run-1" 3 0) t ∧
      Passed [brewStep] t.rows.snapshots 1 := by
  obtain ⟨artifact, t, -, -, snapshot, of, run, -, isLast, stands, -⟩ := brew_run
  obtain ⟨earlier, split⟩ := List.getLast?_eq_some_iff.mp isLast
  have passed := (steps_in_order of run earlier snapshot [] split).2 stands
  exact ⟨artifact, t, of, run, split ▸ passed⟩

/-- The run that was served succeeds through its gate. -/
theorem success_gated_brewing :
    ∃ artifact u, ScaffoldOf [submittedStep "brew"] brewInput [brewStep] artifact ∧
      Run (step plainPlatform) anyStep (created artifact "run-1" 3 0) u ∧
      u.rows.run.status = .succeeded ∧
      ((∀ before step rest, [brewStep] = before ++ step :: rest → ∃ snapshot ∈ u.rows.snapshots,
        Passes step (nextPhase rest) snapshot ∧
          ∀ entry ∈ ledgerEntries snapshot.token, Proven u.rows.events snapshot.token entry) ∨
        Cut [brewStep] u.rows.snapshots) := by
  obtain ⟨artifact, t, u, -, -, of, first, -, -, -, later, succeeded⟩ := brew_run
  have run := first.trans later
  exact ⟨artifact, u, of, run, succeeded, success_gated of run succeeded⟩

/-- The run that was served succeeds past its steps. -/
theorem evidence_gated_brewing :
    ∃ artifact u, ScaffoldOf [submittedStep "brew"] brewInput [brewStep] artifact ∧
      Run (step plainPlatform) anyStep (created artifact "run-1" 3 0) u ∧
      u.rows.run.status = .succeeded ∧
      ∃ count, Passed [brewStep] u.rows.snapshots count ∧
        (count = 1 ∨ CutAfter [brewStep] u.rows.snapshots count) := by
  obtain ⟨artifact, t, u, -, -, of, first, -, -, -, later, succeeded⟩ := brew_run
  have run := first.trans later
  exact ⟨artifact, u, of, run, succeeded, evidence_gated of run succeeded⟩

/-- The evaluation completes the run although what it requires is missing. -/
def brewCut : AgentOutcome :=
  .observed "agent-run" {}
    { nodeId := "evaluate_brew", decision := .complete, terminalMessage := "All done."
      evidenceAssessment :=
        { evaluatedEventRefs := ["terminal_event:2"]
          requirementResults := [{ requirementKey := "site_state", status := .missing }] } }

/-- The second attempt completes the run at the evaluation of its step. -/
def brewCutShort : List Event :=
  brewTurns ++ [Event.claim 2 100, .begin 2 true (plainSupply "4"), .turn 2 brewCut (plainSupply "5"),
    .turn 2 .timedOut (plainSupply "6"), .turn 2 .timedOut (plainSupply "7")]

/-- A ledger that accepts nothing. -/
def acceptsNothing (snapshot : Snapshot) : Bool :=
  (ledgerEntries snapshot.token).all fun entry => entryStatus entry != some "accepted"

/-- A run whose only evaluation completes it succeeds, and no ledger of it accepts what its step
requires. -/
theorem complete_ungated :
    ∃ artifact u, ScaffoldOf [submittedStep "brew"] brewInput [brewStep] artifact ∧
      Run (step plainPlatform) anyStep (created artifact "run-1" 3 0) u ∧
      u.rows.run.status = .succeeded ∧
      ¬ ∀ step ∈ [brewStep], ∃ snapshot ∈ u.rows.snapshots,
        snapshot.selected = some (evaluateId step.id) ∧ Accepts step snapshot.token := by
  obtain ⟨artifact, u, stored, ran, passes⟩ := checked_run (show
    ((accepted (obj (scaffoldFields brewInput brewStep.id [brewStep]))).bind fun artifact =>
      follow (step plainPlatform) anyStep (created artifact "run-1" 3 0) brewCutShort).any
      (fun u => decide (u.rows.run.status = .succeeded) && u.rows.snapshots.all acceptsNothing) = true
    by decide +kernel)
  simp only [Bool.and_eq_true, decide_eq_true_eq] at passes
  obtain ⟨succeeded, none_⟩ := passes
  refine ⟨artifact, u, ⟨submitted_brew, _, rfl, stored⟩, run_of_follow ran, succeeded, fun all => ?_⟩
  obtain ⟨snapshot, isIn, -, accepts⟩ := all brewStep (List.mem_singleton_self _)
  obtain ⟨entry, isEntry, -, isAccepted⟩ := accepts siteState (List.mem_singleton_self _) rfl
  have refused := List.all_eq_true.mp (List.all_eq_true.mp none_ snapshot isIn) entry isEntry
  rw [isAccepted] at refused
  cases refused

end Psop.Runtime.Chain
