import Psop.Runtime.Gate
import Psop.Runtime.TaskStatus

/-!
A step whose evaluation went on stays behind the run.

What comes after an evaluation can fail over the very input it was made on: the wait of that input is still
the recorded one, and a recovery goes back to it. `Placed` counts the nodes before a token, also where it
waits, and `move_past` says what a step does to a token past an evaluation. **`stages_stay`**: as long as
no turn fails so past its wait, no later token waits for the step, and the task status has it completed.
In `stage_regressed` the next instruction times out.
-/
namespace Psop.Runtime.Chain

open Json Psop.Compiler Psop.Compiler.Valid Psop.Runtime.System Psop.Runner

/-! ### The decision of an evaluation in the token -/

/-- Where a token has the decision of a step's evaluation. -/
def decisionPath (id : String) : List String := ["observations", evaluateId id, "decision"]

theorem at_of_field (key next : String) (path : List String) (j : Json) :
    at? (key :: next :: path) j = at? (next :: path) (j.field key) := by
  rw [at?_cons, field]
  cases j.field? key with
  | none => rfl
  | some value => rfl

theorem step_completed_at (token : Json) (id : String) :
    stepCompleted token id =
      decide (Text.lower ((token.at? (decisionPath id)).getD null).strOr ∈ ["proceed", "complete"]) := by
  rw [decisionPath, at_of_field, at_of_field, stepCompleted, evaluateId]
  cases (token.field "observations").field ("evaluate_" ++ id) with
  | obj fs =>
    have reads : (lookup "decision" fs).bind (at? []) = lookup "decision" fs := by
      cases lookup "decision" fs <;> rfl
    simp only [at?_cons, field?, fields, reads]
  | null | bool | num | str | arr =>
    have undecided : false =
        decide (Text.lower ((none : Option Json).getD null).strOr ∈ ["proceed", "complete"]) := by decide
    exact undecided

theorem completed_of_read {a b : Json} {id : String}
    (same : b.at? (decisionPath id) = a.at? (decisionPath id)) :
    stepCompleted b id = stepCompleted a id := by
  rw [step_completed_at, step_completed_at, same]

theorem compact_llm_decision (sha256 : String → String) (observation : Json) :
    (compactLlmObservation sha256 observation).at? ["decision"] = observation.at? ["decision"] := by
  unfold compactLlmObservation
  simp only
  split
  · rfl
  · rw [at?_cons, at?_cons, field?, fields, lookup_setKey_other (by decide),
      lookup_popKey_other (by decide), field?]

/-- Compaction keeps the decisions. -/
theorem compact_decision (sha256 : String → String) (token : Json) (id : String) :
    (compactRuntimeToken sha256 token).at? (decisionPath id) = token.at? (decisionPath id) := by
  unfold compactRuntimeToken
  split
  · rename_i observations has
    refine Eq.trans ?_ (at?_below has [evaluateId id, "decision"]).symm
    rw [decisionPath, at?_cons, field?, fields, lookup_setKey_same, Option.bind_some, at?_cons, at?_cons,
      field?, fields, field?, fields,
      lookup_map (fun _ observation => compactLlmObservation sha256 observation), Option.bind_map]
    exact Option.bind_congr fun observation _ => compact_llm_decision sha256 observation
  · rfl

theorem path_apart {p : List String} {id : String} (beside : Json.Apart p ["observations"]) :
    Json.Apart p (decisionPath id) := beside.append _

/-! ### What leaves the decisions alone -/

section Writing

variable {now : String} {a b : Json}

theorem sync_event_writes {taken taken' : Json × List Json} {event : TerminalEvent}
    (did : syncEvent now taken event = some taken') : Writes waitPaths taken.1 taken'.1 := by
  unfold syncEvent copyEvent at did
  obtain ⟨copied, copies, did⟩ := Option.bind_eq_some_iff.mp did
  obtain ⟨c, push, copies⟩ := Option.bind_eq_some_iff.mp copies
  obtain ⟨d, latest, put⟩ := Option.bind_eq_some_iff.mp copies
  have copying : Writes waitPaths taken.1 copied :=
    (((Writes.push push).under (by decide)).step ((Writes.put latest).under (by decide))).step
      ((Writes.put put).under (by decide))
  split at did
  · obtain rfl := Option.some.inj did
    exact copying
  · obtain ⟨e, noted, did⟩ := Option.bind_eq_some_iff.mp did
    have noting := copying.step (note_input_writes noted)
    split at did
    · obtain ⟨f, took, same⟩ := Option.bind_eq_some_iff.mp did
      obtain rfl := Option.some.inj same
      exact noting.step (take_evidence_writes took)
    · obtain rfl := Option.some.inj did
      exact noting

theorem sync_all_writes {events : List TerminalEvent} {taken taken' : Json × List Json}
    (did : events.foldlM (syncEvent now) taken = some taken') : Writes waitPaths taken.1 taken'.1 := by
  induction events generalizing taken with
  | nil =>
    obtain rfl : taken = taken' := Option.some.inj did
    exact .refl _ _
  | cons event rest ih =>
    rw [List.foldlM_cons] at did
    obtain ⟨next, first, later⟩ := Option.bind_eq_some_iff.mp did
    exact (sync_event_writes first).step (ih later)

theorem sync_writes {events : List TerminalEvent} (did : syncTerminalEvents now events a = some b) :
    Writes waitPaths a b := by
  unfold syncTerminalEvents at did
  split at did
  · obtain rfl := Option.some.inj did
    exact .refl _ _
  obtain ⟨cursor, -, did⟩ := Option.bind_eq_some_iff.mp did
  split at did
  · obtain rfl := Option.some.inj did
    exact .refl _ _
  obtain ⟨opened, opens, did⟩ := Option.bind_eq_some_iff.mp did
  obtain ⟨windowed, window, did⟩ := Option.bind_eq_some_iff.mp did
  obtain ⟨taken, took, did⟩ := Option.bind_eq_some_iff.mp did
  obtain ⟨finished, finish, rfl⟩ := Option.map_eq_some_iff.mp did
  obtain ⟨listed, lists, enveloped⟩ := Option.bind_eq_some_iff.mp opens
  have opening : Writes waitPaths a opened :=
    ((Writes.setDefault lists).under (by decide)).step ((Writes.setDefault enveloped).under (by decide))
  have windowing : Writes waitPaths opened windowed := by
    unfold ensureWaitInputWindow at window
    split at window
    · obtain ⟨c, policy, put⟩ := Option.bind_eq_some_iff.mp window
      exact ((Writes.setDefault policy).under (by decide)).step ((Writes.put put).under (by decide))
    · exact (Writes.put window).under (by decide)
  exact ((opening.step windowing).step (sync_all_writes took)).step (finish_taking_writes finish)

/-- What an interaction may change in a token. -/
def interactionPaths : List (List String) := ["outputs"] :: waitPaths

theorem reopen_writes {observation : Json} {waits : Bool}
    (reopened : reopenWait observation a = some (b, waits)) : Writes interactionPaths a b := by
  unfold reopenWait at reopened
  split at reopened
  · obtain ⟨rfl, -⟩ := Prod.mk.inj (Option.some.inj reopened)
    exact .refl _ _
  · obtain ⟨c, status, reopened⟩ := Option.bind_eq_some_iff.mp reopened
    obtain ⟨d, reason, reopened⟩ := Option.bind_eq_some_iff.mp reopened
    obtain ⟨e, waiting, reopened⟩ := Option.bind_eq_some_iff.mp reopened
    obtain ⟨f, phase, same⟩ := Option.bind_eq_some_iff.mp reopened
    obtain ⟨rfl, -⟩ := Prod.mk.inj (Option.some.inj same)
    exact (((Writes.put status).under (by decide)).step ((Writes.put reason).under (by decide))).step
      (((Writes.put waiting).under (by decide)).step ((Writes.put phase).under (by decide)))

theorem abort_writes {target : String} {artifact node observation : Json}
    (aborted : abortToken now target artifact node observation a = some b) :
    Writes interactionPaths a b := by
  unfold abortToken at aborted
  simp only at aborted
  obtain ⟨c, final, aborted⟩ := Option.bind_eq_some_iff.mp aborted
  obtain ⟨d, record, aborted⟩ := Option.bind_eq_some_iff.mp aborted
  refine (((Writes.put final).under (by decide)).step ((Writes.put record).under (by decide))).step ?_
  split at aborted
  · exact (Writes.put aborted).under (by decide)
  · obtain ⟨e, status, phase⟩ := Option.bind_eq_some_iff.mp aborted
    exact ((Writes.put status).under (by decide)).step ((Writes.put phase).under (by decide))

theorem conclude_writes {decision target : String} {artifact node observation : Json}
    {output : Option TerminalOutput} {enteredWait : Bool} :
    Writes interactionPaths a
      (concludeInteraction now decision target artifact node observation output enteredWait a).token := by
  unfold concludeInteraction
  split
  · exact .refl _ _
  split
  · exact .refl _ _
  rename_i noted note
  have notes : Writes interactionPaths a noted := (Writes.put note).under (by decide)
  split
  · exact notes
  rename_i decided waits applied
  refine notes.step ?_
  unfold applyDecision at applied
  split at applied
  · exact reopen_writes applied
  split at applied
  · obtain ⟨aborted, did, same⟩ := Option.map_eq_some_iff.mp applied
    obtain ⟨rfl, -⟩ := Prod.mk.inj same
    exact abort_writes did
  split at applied
  · obtain ⟨moved, put, same⟩ := Option.map_eq_some_iff.mp applied
    obtain ⟨rfl, -⟩ := Prod.mk.inj same
    exact (Writes.put put).under (by decide)
  · obtain ⟨rfl, -⟩ := Prod.mk.inj (Option.some.inj applied)
    exact .refl _ _

/-- An interaction writes nothing among the observations, also where it fails. -/
theorem interaction_writes {runId : String} {latest : Int} {events : List TerminalEvent}
    {artifact node observation : Json} {accept : Int} :
    Writes interactionPaths a
      (applyNodeInteraction now runId latest events artifact node observation accept a).token := by
  unfold applyNodeInteraction
  split
  · exact .refl _ _
  simp only
  split
  · exact .refl _ _
  rename_i ledgered ledger
  have ledgers : Writes waitPaths a ledgered := by
    split at ledger
    · exact merge_evidence_writes ledger
    · obtain rfl := Option.some.inj ledger
      exact .refl _ _
  have wider : waitPaths ⊆ interactionPaths := List.subset_cons_self _ _
  split
  · refine (ledgers.mono wider).step ?_
    cases put : ledgered.put? ["control", "wait"] (newWait now runId node observation accept) with
    | none => exact .refl _ _
    | some written => exact (Writes.put put).under (by decide)
  · rename_i waited enteredWait resumed wait
    exact ((ledgers.step (wait_after_output_writes wait)).mono wider).step conclude_writes

end Writing

/-! ### A node of a turn -/

section Nodes

variable {platform : Platform} {s : System} {attempt : Nat} {turn : Turn} {outcome : AgentOutcome}
  {supply : Supply} {node observation charged merged a : Json} {shown : Rows} {first step : ScaffoldStep}
  {steps before rest : List ScaffoldStep} {nodes passed : Nat}

theorem scaffold_id_text (firstId : String) (steps : List ScaffoldStep) :
    ∀ node ∈ scaffoldNodes firstId steps, (node.field "id").toStr = nodeId node :=
  scaffold_nodes firstId steps (@node_id_of (startNode firstId) "start" rfl).symm
    (fun step _ isFirst => (instruct_nodeId step isFirst).symm)
    (fun step _ next => (evaluate_nodeId step next).symm)
    (@node_id_of finalVerifyNode "final_verify" rfl).symm (@node_id_of terminalNode "terminal" rfl).symm

theorem Scaffolded.words {artifact : Json} (scaffolded : Scaffolded artifact first steps) :
    ∀ step ∈ steps, Word step.id := fun step isStep => (scaffolded.named step isStep).word

/-- The nodes of a scaffold keep off what the terminal is read along. -/
theorem Scaffolded.merges_apart {artifact : Json} (scaffolded : Scaffolded artifact first steps) :
    MergesApart artifact := by
  have beside : ∀ p ∈ viewPaths, Json.Apart ["observations"] p ∧ Json.Apart ["outputs", "final_response"] p ∧
      Json.Apart ["phase"] p ∧ Json.Apart ["status"] p := by decide
  intro node isNode operation isOperation p isPath
  rw [scaffolded.nodes] at isNode
  exact (scaffold_files first.id scaffolded.words node isNode operation isOperation).apart
    (written_beside (beside p isPath) node)

/-- A node of another id leaves the decision of a step. -/
theorem Commits.decision_stays (scaffolded : Scaffolded s.rows.artifact first steps)
    (commits : Commits platform s attempt turn outcome supply node observation charged merged shown)
    {id : String} (other : nodeId node ≠ evaluateId id) :
    (interacted platform s turn node observation merged).token.at? (decisionPath id) =
      turn.token.at? (decisionPath id) := by
  have isNode : node ∈ scaffoldNodes first.id steps := scaffolded.nodes ▸ commits.isNode
  have own : Json.Apart ["observations", nodeId node] (decisionPath id) := by
    simp [Json.Apart, apart, decisionPath, other]
  have beside : ∀ q ∈ writtenPaths node, Json.Apart q (decisionPath id) := by
    simp only [writtenPaths, List.forall_mem_cons]
    exact ⟨own, rfl, rfl, rfl, fun _ none => absurd none List.not_mem_nil⟩
  obtain ⟨made, ran, merge⟩ := commits.merge
  have charges : charged.at? (decisionPath id) = turn.token.at? (decisionPath id) :=
    (execute_node_writes ran).read (by simp [Json.Apart, apart, decisionPath])
  have merges : merged.at? (decisionPath id) = charged.at? (decisionPath id) := by
    refine merge_observation_keeps (fun operation isOperation => ?_) ?_ merge
    · exact (scaffold_files first.id scaffolded.words node isNode operation isOperation).apart beside
    · rw [scaffold_id_text first.id steps node isNode]
      exact own
  refine Eq.trans (interaction_writes.read ?_) (merges.trans charges)
  exact fun q isQ => path_apart ((show ∀ q ∈ interactionPaths, Json.Apart q ["observations"] by decide) q isQ)

/-- The node of a turn is the one of its phase. -/
theorem Selected.at_phase (scaffolded : Scaffolded s.rows.artifact first steps)
    (selected : Selected s attempt turn node) (runs : Runs steps turn.token nodes passed) :
    turn.token.at? ["phase"] = some (str (nodeId node)) := by
  obtain ⟨own, only, -, -, phase⟩ := runs.enabled scaffolded selected.notAborted selected.notSucceeded
  have isIn := select_mem selected.selected
  rw [only] at isIn
  exact List.mem_singleton.mp isIn ▸ phase

/-- A token at the phase of an evaluation is to evaluate the step it waited for. -/
theorem Runs.evaluates {id : String} (runs : Runs steps a nodes passed)
    (phase : a.at? ["phase"] = some (str (evaluateId id))) :
    nodes = 2 * passed + 2 ∧ nodes ≤ 2 * steps.length ∧ AwaitsAt steps passed a := by
  have is : ∀ {name : String}, a.at? ["phase"] = some (str name) → name = evaluateId id := fun named =>
    Json.str.inj (Option.some.inj (named.symm.trans phase))
  have fixed : ∀ name ∈ ["start", "final_verify", "terminal", "completed", "aborted"],
      a.at? ["phase"] ≠ some (str name) := by
    have heads : ∀ name ∈ ["start", "final_verify", "terminal", "completed", "aborted"],
        name.toList.head? ≠ some 'e' := by decide
    intro name isFixed named
    obtain rfl := is named
    exact heads _ isFixed (evaluateId_head _)
  cases runs with
  | evaluate split stands awaits =>
    refine ⟨rfl, ?_, _, _, _, split, rfl, awaits⟩
    rw [split, List.length_append, List.length_cons]
    omega
  | instruct _ stands => exact absurd (is stands.phase) (instruct_ne_evaluate _ _)
  | start stands | verify _ stands | terminal stands | completed stands | aborted stands =>
    exact absurd stands.phase (fixed _ (by simp))

end Nodes

/-! ### Past a step -/

/-- A token has left the phase that the wait it records resumes at. -/
def pastWait (token : Json) : Bool := waitText "resume_phase" token != (token.field "phase").strOr

/-- The token a node fails with: as the turn has it, after the charges, or as the interaction left it. -/
def failure? (platform : Platform) (s : System) (turn : Turn) (node : Json) (outcome : AgentOutcome) :
    Option Json :=
  match executed platform s turn node outcome with
  | .error _ => some turn.token
  | .ok (observation, charged) =>
    match mergeObservation node observation charged with
    | none => some charged
    | some (merged, seen) =>
      match (interacted platform s turn node seen merged).outcome with
      | .error _ => some (interacted platform s turn node seen merged).token
      | .ok _ => none

/-- A node fails past the wait and its turn, which holds its lease and the last snapshot, is recovered. -/
def recoversPast (platform : Platform) (s : System) : Event → Bool
  | .turn attempt outcome _ =>
    match s.attempts attempt with
    | .looping turn =>
      pastWait turn.token && s.rows.holdsLease s.now (leaseOf attempt turn.leased) &&
        s.rows.run.latestSnapshotSeq == turn.snapshotSeq &&
        ((selectNode (enabledNodes s.rows.artifact turn.token)).bind fun node =>
          failure? platform s turn node outcome).any isRecoverable
    | _ => false
  | _ => false

/-- No node fails so. -/
def StaysPast (platform : Platform) (s : System) (e : Event) : Prop := recoversPast platform s e = false

instance (platform : Platform) (s : System) (e : Event) : Decidable (StaysPast platform s e) :=
  inferInstanceAs (Decidable (recoversPast platform s e = false))

/-- So many nodes come before a token, where it runs and where it waits. -/
inductive Placed (steps : List ScaffoldStep) (token : Json) : Nat → Prop
  | runs {nodes passed : Nat} (runs : Runs steps token nodes passed) : Placed steps token nodes
  | waits {passed : Nat} (waits : Waits steps token passed) : Placed steps token (2 * passed + 2)

/-- A token has left a step with so many before it, by a decision that it holds. -/
structure Past (steps : List ScaffoldStep) (count : Nat) (id : String) (token : Json) : Prop where
  completed : stepCompleted token id = true
  beyond : hasStatus token "cancelled" = true ∨ ∃ nodes, 2 * count + 2 < nodes ∧ Placed steps token nodes

section Past

variable {platform : Platform} {s t : System} {e : Event} {attempt : Nat} {turn : Turn}
  {outcome : AgentOutcome} {supply : Supply} {node observation charged merged a b : Json} {shown : Rows}
  {first step : ScaffoldStep} {steps before rest : List ScaffoldStep} {nodes passed count : Nat}
  {id : String}

/-- A token at the phase of its wait is to evaluate the step it waited for. -/
theorem Runs.held (runs : Runs steps a nodes passed) (held : pastWait a = false)
    (has : (wait? a).isSome = true) :
    nodes = 2 * passed + 2 ∧ nodes ≤ 2 * steps.length ∧ AwaitsAt steps passed a := by
  obtain ⟨before, step, rest, -, -, awaits⟩ := runs.awaits has
  have resumes : waitText "resume_phase" a = evaluateId step.id := by
    rw [waitText, awaits.resumes, Option.getD_some, str_or_str]
  obtain ⟨status, phase, stands⟩ := runs.stands
  have isPhase : (a.field "phase").strOr = phase := by
    rw [field_read, stands.phase, Option.getD_some, str_or_str]
  rw [pastWait, resumes, isPhase, bne_eq_false_iff_eq] at held
  exact runs.evaluates (held ▸ stands.phase)

/-- **A turn past a step** is the one that goes on from a token past it. -/
theorem OnLast.past {last : Snapshot} (onLast : OnLast platform s.rows turn last)
    (past : Past steps count id last.token) (runs : Runs steps turn.token nodes passed) :
    stepCompleted turn.token id = true ∧
      ∃ nodes passed, Runs steps turn.token nodes passed ∧ 2 * count + 2 < nodes := by
  have awake := runs.awake
  have going := runs.uncancelled
  rcases Nat.eq_zero_or_pos turn.stepsDone with new | later
  · obtain ⟨now, events, -, sync⟩ := onLast.synced new
    have reads := compact_reads platform.sha256 last.token
    have completed : stepCompleted turn.token id = true := by
      rw [← past.completed]
      refine completed_of_read (((sync_writes sync).read fun q isQ => path_apart ?_).trans
        (compact_decision _ _ _))
      exact (show ∀ q ∈ waitPaths, Json.Apart q ["observations"] by decide) q isQ
    refine ⟨completed, ?_⟩
    rcases past.beyond with cancelled | ⟨nodes, beyond, placed⟩
    · -- a cancelled token is taken as it is
      rw [← compact_status platform.sha256] at cancelled
      have same : turn.token = compactRuntimeToken platform.sha256 last.token := by
        unfold syncTerminalEvents at sync
        rw [if_pos (by rw [isWaiting, status_unique cancelled (by decide)]; rfl)] at sync
        exact (Option.some.inj sync).symm
      rw [same, cancelled] at going
      cases going
    · cases placed with
      | runs stored =>
        have stored := stored.of_reads reads
        exact ⟨_, _, stored.synced sync ▸ stored, beyond⟩
      | waits waits => exact ⟨_, _, ((waits.of_reads reads).synced sync awake).2, beyond⟩
  · have same := onLast.stored later
    rw [← same] at awake going ⊢
    refine ⟨past.completed, ?_⟩
    rcases past.beyond with cancelled | ⟨nodes, beyond, placed⟩
    · rw [cancelled] at going
      cases going
    · cases placed with
      | runs stored => exact ⟨_, _, stored, beyond⟩
      | waits waits =>
        rw [waits.asleep] at awake
        cases awake

/-- Past its evaluation no other node leaves the step behind undone. -/
theorem Commits.stays_completed (scaffolded : Scaffolded s.rows.artifact first steps)
    (commits : Commits platform s attempt turn outcome supply node observation charged merged shown)
    (runs : Runs steps turn.token nodes passed) (distinct : (steps.map ScaffoldStep.id).Nodup)
    (split : steps = before ++ step :: rest) (beyond : 2 * before.length + 2 < nodes)
    (completed : stepCompleted turn.token step.id = true) :
    stepCompleted (interacted platform s turn node observation merged).token step.id = true := by
  rw [← completed]
  refine completed_of_read (Commits.decision_stays scaffolded commits fun same => ?_)
  have phase := Selected.at_phase scaffolded commits.selected runs
  rw [same] at phase
  have place := runs.place distinct split (.inr phase)
  have nodes := (runs.evaluates phase).1
  omega

/-- **A node past a step** leaves a token past it, unless it is the final check. -/
theorem Commits.past (scaffolded : Scaffolded s.rows.artifact first steps)
    (commits : Commits platform s attempt turn outcome supply node observation charged merged shown)
    (runs : Runs steps turn.token nodes passed) (split : steps = before ++ step :: rest)
    (beyond : 2 * before.length + 2 < nodes) (completed : stepCompleted turn.token step.id = true)
    (unchecked : node ≠ finalVerifyNode) {waits : Bool}
    (applied : (interacted platform s turn node observation merged).outcome = .ok waits) :
    Past steps before.length step.id (interacted platform s turn node observation merged).token := by
  refine ⟨Commits.stays_completed scaffolded commits runs scaffolded.distinct split beyond completed, .inr ?_⟩
  have leaves := node_leaves scaffolded runs commits
  cases waits with
  | false =>
    obtain ⟨later, after, further, onward⟩ := leaves.goes applied
    exact ⟨later, beyond.trans onward.below, .runs further⟩
  | true =>
    obtain ⟨behind, -, waits, near⟩ := leaves.waits applied
    exact ⟨_, Nat.lt_of_lt_of_le beyond (near.resolve_right unchecked), .waits waits⟩

/-- A token past the first step has a wait. -/
theorem Runs.waited (runs : Runs steps a nodes passed) (later : 2 < nodes) : (wait? a).isSome = true := by
  cases runs with
  | start => omega
  | @instruct before step rest split stands behind =>
    rw [Behind] at behind
    cases last : before.getLast? with
    | none =>
      rw [List.getLast?_eq_none_iff.mp last, List.length_nil] at later
      omega
    | some step =>
      rw [last] at behind
      exact behind.has
  | evaluate _ _ awaits | verify _ _ awaits => exact awaits.has
  | terminal _ awaits | completed _ awaits | aborted _ awaits =>
    obtain ⟨before, step, rest, -, -, awaits⟩ := awaits
    exact awaits.has

/-- Where no node fails past its wait, one that is recovered fails at it. -/
theorem StaysPast.held {token : Json} (stays : StaysPast platform s (.turn attempt outcome supply))
    (selected : Selected s attempt turn node) (failed : failure? platform s turn node outcome = some token)
    (recoverable : isRecoverable token = true)
    (holds : s.rows.holdsLease s.now (leaseOf attempt turn.leased) = true)
    (current : s.rows.run.latestSnapshotSeq = turn.snapshotSeq) : pastWait turn.token = false := by
  simpa [StaysPast, recoversPast, selected.looping, selected.selected, failed, recoverable, holds, current]
    using stays

/-- **A failure past a step** that is recovered waits for a later one. -/
theorem Fails.past {leased : Bool} {token : Json} {waits : List WaitMark} {expected : Nat} {rows : Rows}
    {last : Snapshot} (ok : OnStage first steps s) (based : Based platform s)
    (tracked : Tracked Blank (fun _ _ => True) s)
    (fails : Fails platform s attempt e leased token waits expected rows)
    (recoverable : isRecoverable token = true) (current : rows.run.latestSnapshotSeq = expected)
    (holds : rows.holdsLease s.now (leaseOf attempt leased) = true) (stays : StaysPast platform s e)
    (isLast : s.rows.lastSnapshot? = some last) (split : steps = before ++ step :: rest)
    (past : Past steps before.length step.id last.token) :
    stepCompleted token step.id = true ∧ ∃ passed, before.length < passed ∧ AwaitsAt steps passed token := by
  have turned : ∀ {attempt turn}, s.attempts attempt = .looping turn →
      s.rows.run.latestSnapshotSeq = turn.snapshotSeq → stepCompleted turn.token step.id = true ∧
        ∃ nodes passed, Runs steps turn.token nodes passed ∧ 2 * before.length + 2 < nodes := by
    intro attempt turn looping current
    obtain ⟨own, onLast⟩ := based.based _ _ looping current.symm
    obtain rfl := Option.some.inj (isLast.symm.trans onLast.isLast)
    obtain ⟨nodes, passed, runs, -⟩ := ok.turns _ _ looping
    exact OnLast.past onLast past runs
  cases fails with
  | starting _ unfinished last' unread =>
    obtain rfl := Option.some.inj (isLast.symm.trans last')
    refine ⟨(completed_of_read (compact_decision ..)).trans past.completed, ?_⟩
    rcases past.beyond with cancelled | ⟨nodes, beyond, placed⟩
    · rw [(ok.lastStored unfinished last').uncancelled] at cancelled
      cases cancelled
    · cases placed with
      | runs stored =>
        -- a running token is read as it is, with its cursor
        have stored := stored.of_reads (compact_reads platform.sha256 last.token)
        rcases unread with none | none
        · obtain ⟨-, cursor, isCursor, -⟩ :=
            reached_quiet (tracked.snapshots last (List.mem_of_getLast? isLast))
          have has : cursor? (compactRuntimeToken platform.sha256 last.token) = some cursor :=
            (congrArg View.cursor (compact_view platform.sha256 last.token)).trans isCursor
          rw [none] at has
          cases has
        · unfold syncTerminalEvents at none
          rw [if_pos (by rw [isWaiting, stored.awake]; rfl)] at none
          cases none
      | waits waits =>
        cases waits.of_reads (compact_reads platform.sha256 last.token) with
        | held split' _ awaits => exact ⟨_, by omega, _, _, _, split', rfl, awaits⟩
  | looping looping stuck =>
    rcases stuck with ⟨notAborted, notSucceeded, none⟩ | unbounded
    · obtain ⟨nodes, passed, runs, -⟩ := ok.turns _ _ looping
      obtain ⟨own, only, priced, -⟩ := runs.enabled ok.scaffolded notAborted notSucceeded
      rw [only, select_one priced] at none
      cases none
    · exact absurd (@OnStage.goes_on platform _ _ _ _ _ ok looping).1 unbounded
  | executing selected failed =>
    obtain ⟨completed, nodes, passed, runs, beyond⟩ := turned selected.looping current
    have held := stays.held selected (by simp only [failure?, failed]) recoverable holds current
    obtain ⟨same, -, awaits⟩ := runs.held held (runs.waited (by omega))
    exact ⟨completed, passed, by omega, awaits⟩
  | merging selected ran unmerged =>
    obtain ⟨completed, nodes, passed, runs, beyond⟩ := turned selected.looping current
    have held := stays.held selected (by simp only [failure?, ran, unmerged]) recoverable holds current
    obtain ⟨same, -, before', step', rest', split', length, awaits⟩ := runs.held held (runs.waited (by omega))
    have writes := execute_node_writes ran
    have same : stepCompleted token step.id = stepCompleted _ step.id :=
      completed_of_read (writes.read (by simp [Json.Apart, apart, decisionPath]))
    exact ⟨same.trans completed, passed, by omega, before', step', rest', split', length,
      awaits.of_writes writes (by decide)⟩
  | applying commits failed =>
    obtain ⟨completed, nodes, passed, runs, beyond⟩ := turned commits.selected.looping commits.current
    obtain ⟨made, ran, merge⟩ := commits.merge
    have held := stays.held commits.selected (by simp only [failure?, ran, merge, failed]) recoverable
      commits.holds commits.current
    obtain ⟨same, within, -⟩ := runs.held held (runs.waited (by omega))
    have still := Commits.stays_completed ok.scaffolded commits runs ok.scaffolded.distinct split beyond completed
    exact ⟨still, passed, by omega, (node_leaves ok.scaffolded runs commits).again same within⟩

theorem recovered_past {now error : String} {trace : TraceRef} {event : Option TerminalEvent}
    {token new : Json} (completed : stepCompleted token id = true) (beyond : count < passed)
    (awaits : AwaitsAt steps passed token)
    (recovers : recoverTerminalTurnToken now error trace event token = some new) :
    Past steps count id new := by
  obtain ⟨before, step, rest, split, rfl, awaits⟩ := awaits
  obtain ⟨stands, still⟩ := recovered_waits awaits recovers
  refine ⟨?_, .inr ⟨_, by omega, .waits (.held split stands still)⟩⟩
  rw [← completed]
  refine completed_of_read ((recover_token_writes recovers).read fun q isQ => path_apart ?_)
  exact (show ∀ q ∈ recoveryPaths, Json.Apart q ["observations"] by decide) q isQ

theorem cancelled_past {now runId reason : String} {token new : Json}
    (completed : stepCompleted token id = true)
    (cancels : cancelToken now runId reason token = some new) : Past steps count id new := by
  refine ⟨?_, .inl (cancel_token_status cancels)⟩
  rw [← completed]
  unfold cancelToken at cancels
  obtain ⟨a, status, cancels⟩ := Option.bind_eq_some_iff.mp cancels
  obtain ⟨b, phase, cancels⟩ := Option.bind_eq_some_iff.mp cancels
  obtain ⟨c, popped, put⟩ := Option.bind_eq_some_iff.mp cancels
  have writes : Writes [["status"], ["phase"], ["control"]] token new :=
    ((Writes.put status).under (by decide)).step (((Writes.put phase).under (by decide)).step
      (((Writes.pop popped).under (by decide)).step ((Writes.put put).under (by decide))))
  refine completed_of_read (writes.read fun q isQ => path_apart ?_)
  exact (show ∀ q ∈ [["status"], ["phase"], ["control"]], Json.Apart q ["observations"] by decide) q isQ

end Past

/-! ### Over a run -/

/-- The snapshot of an evaluation that goes on from a step, to the next one or to the end. -/
structure Advances (id : String) (snapshot : Snapshot) : Prop where
  selected : snapshot.selected = some (evaluateId id)
  decided : stepCompleted snapshot.token id = true
  goesOn : hasStatus snapshot.token "running" = true

/-- A token waits at the checkpoint of a step. -/
structure WaitsFor (id : String) (token : Json) : Prop where
  waiting : hasStatus token "waiting" = true
  named : waitText "workflow_step_id" token = id

instance (id : String) (snapshot : Snapshot) : Decidable (Advances id snapshot) :=
  decidable_of_iff (snapshot.selected = some (evaluateId id) ∧ stepCompleted snapshot.token id = true ∧
      hasStatus snapshot.token "running" = true)
    ⟨fun all => ⟨all.1, all.2.1, all.2.2⟩,
      fun advances => ⟨advances.selected, advances.decided, advances.goesOn⟩⟩

instance (id : String) (token : Json) : Decidable (WaitsFor id token) :=
  decidable_of_iff (hasStatus token "waiting" = true ∧ waitText "workflow_step_id" token = id)
    ⟨fun both => ⟨both.1, both.2⟩, fun waits => ⟨waits.waiting, waits.named⟩⟩

/-- No snapshot is of the final check. -/
def Unchecked (snapshots : List Snapshot) : Prop :=
  ∀ snapshot ∈ snapshots, snapshot.selected ≠ some "final_verify"

/-- Every snapshot from one that advances a step on is past it. -/
def StayPast (steps : List ScaffoldStep) (snapshots : List Snapshot) : Prop :=
  ∀ before step rest, steps = before ++ step :: rest →
    ∀ earlier snapshot later, snapshots = earlier ++ snapshot :: later →
      (∃ old ∈ earlier ++ [snapshot], Advances step.id old) → Past steps before.length step.id snapshot.token

/-- **The invariant** of a run whose failures stay past the steps it has left. -/
structure Forward (first : ScaffoldStep) (steps : List ScaffoldStep) (platform : Platform) (s : System) :
    Prop where
  stage : OnStage first steps s
  based : Based platform s
  tracked : Tracked Blank (fun _ _ => True) s
  past : Unchecked s.rows.snapshots → StayPast steps s.rows.snapshots

section Runs

variable {platform : Platform} {s t : System} {e : Event} {first step : ScaffoldStep}
  {steps before rest : List ScaffoldStep} {new : Snapshot}

/-- The evaluation of a step that goes on is past it. -/
theorem Commits.advances {attempt : Nat} {turn : Turn} {outcome : AgentOutcome} {supply : Supply}
    {node observation charged merged : Json} {shown : Rows} {waits : Bool} (ok : OnStage first steps s)
    (commits : Commits platform s attempt turn outcome supply node observation charged merged shown)
    (applied : (interacted platform s turn node observation merged).outcome = .ok waits)
    (selected : new.selected = some (node.field "id").toStr)
    (isToken : new.token = (interacted platform s turn node observation merged).token)
    (split : steps = before ++ step :: rest) (advances : Advances step.id new) :
    Past steps before.length step.id new.token := by
  obtain ⟨nodes, passed, runs, -⟩ := ok.turns _ _ commits.selected.looping
  have isNode : node ∈ scaffoldNodes first.id steps := ok.scaffolded.nodes ▸ commits.isNode
  have isId : nodeId node = evaluateId step.id := by
    rw [← scaffold_id_text first.id steps node isNode]
    exact Option.some.inj (selected.symm.trans advances.selected)
  have phase := Selected.at_phase ok.scaffolded commits.selected runs
  rw [isId] at phase
  have place := runs.place ok.scaffolded.distinct split (.inr phase)
  have count := (runs.evaluates phase).1
  have leaves := node_leaves ok.scaffolded runs commits
  refine ⟨advances.decided, .inr ?_⟩
  cases waits with
  | false =>
    obtain ⟨later, after, further, onward⟩ := leaves.goes applied
    have below := onward.below
    exact ⟨later, by omega, .runs (isToken ▸ further)⟩
  | true =>
    obtain ⟨behind, -, waits, -⟩ := leaves.waits applied
    have going := advances.goesOn
    rw [isToken, status_unique waits.asleep (by decide)] at going
    cases going

/-- **A step keeps a run past the steps it has left.** -/
theorem move_past (ok : Forward first steps platform s) (stays : StaysPast platform s e)
    (move : Move platform s e t) (unchecked : Unchecked t.rows.snapshots)
    (snapshots : t.rows.snapshots = s.rows.snapshots ++ [new]) (split : steps = before ++ step :: rest)
    (past : (∃ last, s.rows.lastSnapshot? = some last ∧ Past steps before.length step.id last.token) ∨
      Advances step.id new) : Past steps before.length step.id new.token := by
  have isNew : ∀ {added : Snapshot}, AddsSnapshot s.rows t.rows added → added = new := fun adds =>
    List.singleton_inj.mp (List.append_cancel_left (adds.1.symm.trans snapshots))
  cases move_stores move with
  | kept kept =>
    have longer := congrArg List.length (kept.1.symm.trans snapshots)
    simp at longer
  | cancelled isLast added token =>
    obtain rfl := isNew added
    rcases past with ⟨last, isLast', past⟩ | advances
    · obtain rfl := Option.some.inj (isLast.symm.trans isLast')
      exact cancelled_past past.completed token
    · have going := advances.goesOn
      rw [status_unique (cancel_token_status token) (by decide)] at going
      cases going
  | @stepped _ turn _ _ node _ _ _ _ _ _ _ commits applied added selected token =>
    obtain rfl := isNew added
    rcases past with ⟨last, isLast, past⟩ | advances
    · obtain ⟨last', onLast⟩ := ok.based.based _ _ commits.selected.looping commits.current.symm
      obtain rfl := Option.some.inj (isLast.symm.trans onLast.isLast)
      obtain ⟨nodes, passed, runs, -⟩ := ok.stage.turns _ _ commits.selected.looping
      obtain ⟨completed, nodes, passed, runs, beyond⟩ := OnLast.past onLast past runs
      rw [token]
      refine Commits.past ok.stage.scaffolded commits runs split beyond completed (fun isCheck => ?_) applied
      refine unchecked _ (snapshots ▸ List.mem_append_right _ (List.mem_singleton_self _)) ?_
      rw [selected, isCheck]
      rfl
    · exact Commits.advances ok.stage commits applied selected token split advances
  | recovered fails recoverable current turn added unselected recovers holds =>
    obtain rfl := isNew added
    rcases past with ⟨last, isLast, past⟩ | advances
    · obtain ⟨completed, passed, beyond, awaits⟩ := Fails.past ok.stage ok.based ok.tracked fails recoverable
        current holds stays isLast split past
      exact recovered_past completed beyond awaits recovers
    · have none := unselected.symm.trans advances.selected
      cases none

/-- **A step keeps the invariant.** -/
theorem move_forward (ok : Forward first steps platform s) (stays : StaysPast platform s e)
    (move : Move platform s e t) : Forward first steps platform t := by
  have within : EntersWithin platform (fun _ _ => True) s e := ⟨fun _ _ _ => trivial⟩
  refine ⟨move_on_stage ok.stage move, move_based ok.based move, move_tracked ok.tracked within move,
    fun unchecked before step rest split earlier snapshot later found advanced => ?_⟩
  rcases (move_stores move).adds with ⟨same, -⟩ | ⟨new, same, -⟩
  · exact ok.past (same ▸ unchecked) before step rest split earlier snapshot later (same ▸ found) advanced
  have stayed : StayPast steps s.rows.snapshots := ok.past fun old stored =>
    unchecked old (same ▸ List.mem_append_left _ stored)
  rcases split_last (same.symm.trans found) with ⟨rfl, rfl, -⟩ | ⟨between, -, old⟩
  · refine move_past ok stays move unchecked same split ?_
    obtain ⟨old, isOld, advances⟩ := advanced
    rcases List.mem_append.mp isOld with stored | isNew
    · -- the last snapshot is past the step
      obtain ⟨init, last, isLast⟩ := List.eq_nil_or_concat s.rows.snapshots |>.resolve_left
        (List.ne_nil_of_mem stored)
      rw [List.concat_eq_append] at isLast
      refine .inl ⟨last, by rw [Rows.lastSnapshot?, isLast, List.getLast?_concat], ?_⟩
      exact stayed before step rest split init last [] isLast ⟨old, isLast ▸ stored, advances⟩
    · exact .inr (List.mem_singleton.mp isNew ▸ advances)
  · exact stayed before step rest split earlier snapshot between old advanced

theorem created_forward {artifact : Json} (scaffolded : Scaffolded artifact first steps) (platform : Platform)
    (runId : String) (maxAttempts now : Nat) :
    Forward first steps platform (created artifact runId maxAttempts now) := by
  refine ⟨created_on_stage scaffolded runId maxAttempts now,
    start_based (.created artifact runId maxAttempts now), created_tracked scaffolded.merges_apart,
    fun _ before step rest _ earlier snapshot later found advanced => ?_⟩
  obtain ⟨old, isOld, advances⟩ := advanced
  have stored : old ∈ (created artifact runId maxAttempts now).rows.snapshots := by
    rw [found, List.append_cons]
    exact List.mem_append_left _ isOld
  obtain rfl := List.mem_singleton.mp stored
  cases advances.selected

/-- A token past a step does not wait for it. -/
theorem Past.elsewhere {token : Json} (past : Past steps before.length step.id token)
    (distinct : (steps.map ScaffoldStep.id).Nodup) (split : steps = before ++ step :: rest) :
    ¬ WaitsFor step.id token := by
  intro waits
  rcases past.beyond with cancelled | ⟨nodes, beyond, placed⟩
  · have asleep := waits.waiting
    rw [status_unique cancelled (by decide)] at asleep
    cases asleep
  · cases placed with
    | runs runs =>
      have asleep := waits.waiting
      rw [runs.awake] at asleep
      cases asleep
    | waits placed =>
      cases placed with
      | held split' _ awaits =>
        have named := waits.named
        rw [waitText, awaits.named, Option.getD_some, str_or_str] at named
        have place := place_of_step distinct split split' named
        omega

/-- A stage of the task status is completed if the last token has its decision. -/
theorem stage_completed {skill : SkillRow} {artifact : Json} {rows : Rows} {last : Snapshot} {id : String}
    (isLast : rows.lastSnapshot? = some last) (completed : stepCompleted last.token id = true) :
    ∀ stage ∈ (taskStatus skill artifact rows).stages, stage.id = id → stage.status = "completed" := by
  intro stage isStage named
  obtain ⟨item, -, rfl⟩ := List.mem_map.mp isStage
  have isId : stepId item.1 = id := named
  simp only [stageStatus, isLast, Option.map_some, Option.getD_some, isId, completed, if_true]

end Runs

/-- **Stage progress never regresses** on a scaffold, in every run where no node fails past its wait: from
the snapshot on that advances a step, before the final check, no token waits for the step, and the task
status has it completed. -/
theorem stages_stay {platform : Platform} {t : System} {steps : List ScaffoldStep} {raw : List Json}
    {input : ScaffoldInput} {artifact : Json} {runId : String} {maxAttempts now : Nat}
    (of : ScaffoldOf raw input steps artifact)
    (run : Run (step platform) (StaysPast platform) (created artifact runId maxAttempts now) t)
    (unchecked : ∀ snapshot ∈ t.rows.snapshots, snapshot.selected ≠ some "final_verify") :
    ∀ step ∈ steps, ∀ (earlier : List Snapshot) (snapshot : Snapshot) (later : List Snapshot),
      t.rows.snapshots = earlier ++ snapshot :: later → Advances step.id snapshot →
        (∀ new ∈ later, ¬ WaitsFor step.id new.token) ∧
          ∀ skill, ∀ stage ∈ (taskStatus skill artifact t.rows).stages,
            stage.id = step.id → stage.status = "completed" := by
  obtain ⟨first, scaffolded⟩ := of.scaffolded
  have ok : Forward first steps platform t :=
    run.invariant (fun _ _ _ ok stays stepped => move_forward ok stays (step_move stepped))
      (created_forward scaffolded platform runId maxAttempts now)
  intro step isStep earlier snapshot later found advances
  obtain ⟨before, rest, split⟩ := List.append_of_mem isStep
  have past : ∀ between new beyond, snapshot :: later = between ++ new :: beyond →
      Past steps before.length step.id new.token := by
    intro between new beyond same
    refine ok.past unchecked before step rest split (earlier ++ between) new beyond
      (by rw [found, same, List.append_assoc]) ⟨snapshot, ?_, advances⟩
    have first : snapshot ∈ between ++ [new] := by
      cases between with
      | nil =>
        obtain ⟨rfl, -⟩ := List.cons.inj same
        exact List.mem_singleton_self _
      | cons _ _ =>
        obtain ⟨rfl, -⟩ := List.cons.inj same
        exact List.mem_cons_self
    rw [List.append_assoc]
    exact List.mem_append_right _ first
  refine ⟨fun new isLater => ?_, fun skill => ?_⟩
  · obtain ⟨between, beyond, same⟩ := List.append_of_mem (List.mem_cons_of_mem snapshot isLater)
    exact (past between new beyond same).elsewhere scaffolded.distinct split
  · obtain ⟨between, last, same⟩ := (List.eq_nil_or_concat (snapshot :: later)).resolve_left
      (List.cons_ne_nil _ _)
    rw [List.concat_eq_append] at same
    have isLast : t.rows.lastSnapshot? = some last := by
      rw [Rows.lastSnapshot?, found, same, ← List.append_assoc, List.getLast?_concat]
    exact stage_completed isLast (past between last [] same).completed

/-! ### A scaffold of two steps -/

/-- The step after the brewing. -/
def serveStep : ScaffoldStep := { brewStep with id := "serve" }

theorem submitted_serve :
    normalizeScaffoldSteps [submittedStep "brew", submittedStep "serve"] = .ok [brewStep, serveStep] := rfl

/-- The last snapshot waits for a step, the one before it advances the first step. -/
def comesTo (id : String) (rows : Rows) : Bool :=
  rows.snapshots.dropLast.getLast?.any (fun snapshot => decide (Advances brewStep.id snapshot)) &&
    rows.lastSnapshot?.any (fun snapshot => decide (WaitsFor id snapshot.token)) &&
    rows.snapshots.all fun snapshot => snapshot.selected != some "final_verify"

theorem comes_to {id : String} {rows : Rows} (comes : comesTo id rows = true) :
    Unchecked rows.snapshots ∧ ∃ earlier snapshot new, rows.snapshots = earlier ++ snapshot :: [new] ∧
      Advances brewStep.id snapshot ∧ WaitsFor id new.token := by
  simp only [comesTo, Bool.and_eq_true, Option.any_eq_true, decide_eq_true_eq, List.all_eq_true, bne_iff_ne]
    at comes
  obtain ⟨⟨⟨snapshot, isBefore, advances⟩, new, isLast, waits⟩, unchecked⟩ := comes
  obtain ⟨earlier, before⟩ := List.getLast?_eq_some_iff.mp isBefore
  refine ⟨unchecked, earlier, snapshot, new, ?_, advances, waits⟩
  rw [← List.dropLast_append_getLast? new isLast, before, List.append_assoc]
  rfl

/-- The evaluation of the first step goes on to the second. -/
def brewAdvanced : List Event :=
  brewTurns ++ [Event.claim 2 100, .begin 2 true (plainSupply "4"),
    .turn 2 (brewVerdict .continue_) (plainSupply "5")]

/-- The instruction of the second step is given there, or it times out. -/
theorem serve_runs :
    ∃ artifact t u v, ScaffoldOf [submittedStep "brew", submittedStep "serve"] brewInput [brewStep, serveStep]
        artifact ∧
      Run (step plainPlatform) (StaysPast plainPlatform) (created artifact "run-1" 3 0) t ∧
      Run (step plainPlatform) (StaysPast plainPlatform) t u ∧ comesTo serveStep.id u.rows = true ∧
      Run (step plainPlatform) anyStep t v ∧ comesTo brewStep.id v.rows = true := by
  obtain ⟨artifact, ⟨t, u, v⟩, stored, ran, passes⟩ := checked_run (show
    ((accepted (obj (scaffoldFields brewInput brewStep.id [brewStep, serveStep]))).bind fun artifact =>
      (follow (step plainPlatform) (StaysPast plainPlatform) (created artifact "run-1" 3 0) brewAdvanced).bind
        fun t => (follow (step plainPlatform) (StaysPast plainPlatform) t
          [.turn 2 (plainAnswer "instruct_serve") (plainSupply "6")]).bind fun u =>
            (follow (step plainPlatform) anyStep t [.turn 2 .timedOut (plainSupply "6")]).map
              fun v => (t, u, v)).any
      (fun states => comesTo serveStep.id states.2.1.rows && comesTo brewStep.id states.2.2.rows) = true by
        decide +kernel)
  obtain ⟨isT, advanced, ran⟩ := Option.bind_eq_some_iff.mp ran
  obtain ⟨isU, served, ran⟩ := Option.bind_eq_some_iff.mp ran
  obtain ⟨isV, failed, same⟩ := Option.map_eq_some_iff.mp ran
  obtain ⟨rfl, states⟩ := Prod.mk.inj same
  obtain ⟨rfl, rfl⟩ := Prod.mk.inj states
  obtain ⟨serves, brews⟩ := Bool.and_eq_true_iff.mp passes
  exact ⟨artifact, isT, isU, isV, ⟨submitted_serve, _, rfl, stored⟩, run_of_follow advanced,
    run_of_follow served, serves, run_of_follow failed, brews⟩

/-- The run that serves waits for the second step from then on. -/
theorem stages_stay_serving :
    ∃ artifact u, ScaffoldOf [submittedStep "brew", submittedStep "serve"] brewInput [brewStep, serveStep]
        artifact ∧
      Run (step plainPlatform) (StaysPast plainPlatform) (created artifact "run-1" 3 0) u ∧
      ∃ earlier snapshot later, u.rows.snapshots = earlier ++ snapshot :: later ∧
        Advances brewStep.id snapshot ∧ (∃ new ∈ later, WaitsFor serveStep.id new.token) ∧
        (∀ new ∈ later, ¬ WaitsFor brewStep.id new.token) ∧
        ∀ skill, ∀ stage ∈ (taskStatus skill artifact u.rows).stages,
          stage.id = brewStep.id → stage.status = "completed" := by
  obtain ⟨artifact, t, u, -, of, first, later, serves, -⟩ := serve_runs
  obtain ⟨unchecked, earlier, snapshot, new, found, advances, waits⟩ := comes_to serves
  have run := first.trans later
  have stays := stages_stay of run unchecked brewStep List.mem_cons_self earlier snapshot [new] found advances
  exact ⟨artifact, u, of, run, earlier, snapshot, [new], found, advances,
    ⟨new, List.mem_singleton_self _, waits⟩, stays.1, stays.2⟩

/-- The run whose instruction times out waits for the step that it has left. -/
theorem stage_regressed :
    ∃ artifact v, ScaffoldOf [submittedStep "brew", submittedStep "serve"] brewInput [brewStep, serveStep]
        artifact ∧
      Run (step plainPlatform) anyStep (created artifact "run-1" 3 0) v ∧
      (∀ snapshot ∈ v.rows.snapshots, snapshot.selected ≠ some "final_verify") ∧
      ∃ earlier snapshot later, v.rows.snapshots = earlier ++ snapshot :: later ∧
        Advances brewStep.id snapshot ∧ ∃ new ∈ later, WaitsFor brewStep.id new.token := by
  obtain ⟨artifact, t, -, v, of, first, -, -, later, brews⟩ := serve_runs
  obtain ⟨unchecked, earlier, snapshot, new, found, advances, waits⟩ := comes_to brews
  exact ⟨artifact, v, of, (first.mono fun _ _ _ => trivial).trans later, unchecked, earlier, snapshot, [new],
    found, advances, new, List.mem_singleton_self _, waits⟩

end Psop.Runtime.Chain
