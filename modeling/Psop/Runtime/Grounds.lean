import Psop.Runtime.Rounds
import Psop.Runtime.Abort

/-!
What every stored token of a run rests on.

The evidence of a wait is of inputs of the run's own stream, each consumed at this checkpoint; the ledger
is the one of the step that waits, and what it accepts cites this evidence. A token that does not wait
has received its latest evidence. **`run_grounded`** has this for every snapshot of every run of an
artifact whose nodes leave the checkpoint to the runtime, through turns, recoveries, cancellations and
whatever else comes between.
-/
namespace Psop.Runtime

open Json Rows Psop.Runtime.System Psop.Runner

/-- The evidence of a token is of inputs in the log. -/
def EvidenceDrawn (log : List TerminalEvent) (token : Json) : Prop :=
  ∀ items, token.at? ["control", "wait", "evidence"] = some (arr items) → Drawn log items

/-- A stored token rests on the log: its checkpoint, and where the evidence is from. -/
structure Grounds (log : List TerminalEvent) (artifact token : Json) : Prop where
  rested : Rested artifact token
  drawn : EvidenceDrawn log token

section Tokens

variable {log : List TerminalEvent} {artifact a b : Json}

theorem Drawn.more {log' : List TerminalEvent} {items : List Json} (drawn : Drawn log items)
    (more : log ⊆ log') : Drawn log' items := fun item isItem =>
  (drawn item isItem).imp fun _ found => ⟨more found.1, found.2⟩

theorem EvidenceDrawn.more {log' : List TerminalEvent} (drawn : EvidenceDrawn log a)
    (more : log ⊆ log') : EvidenceDrawn log' a := fun items stored => (drawn items stored).more more

theorem Grounds.more {log' : List TerminalEvent} (grounds : Grounds log artifact a)
    (more : log ⊆ log') : Grounds log' artifact a :=
  ⟨grounds.rested, grounds.drawn.more more⟩

/-- A token with a wait is within the rounds of its checkpoint. -/
theorem Grounds.rounds (grounds : Grounds log artifact a) (has : (wait? a).isSome = true) :
    InRounds log artifact a := ⟨has, grounds.rested, grounds.drawn⟩

theorem EvidenceDrawn.of_same (drawn : EvidenceDrawn log a)
    (same : b.at? ["control", "wait", "evidence"] = a.at? ["control", "wait", "evidence"]) :
    EvidenceDrawn log b := fun items stored => drawn items (same ▸ stored)

/-- Without a wait there is no evidence. -/
theorem drawn_of_none (none_ : wait? a = none) : EvidenceDrawn log a := by
  intro items stored
  obtain ⟨fs, reads⟩ := at?_above ["control", "wait"] stored
  rw [wait?, reads] at none_
  cases none_

/-- A token without a wait rests on nothing. -/
theorem grounds_of_none (none_ : wait? a = none) : Grounds log artifact a := by
  have without : ¬(wait? a).isSome = true := by simp [none_]
  exact ⟨⟨fun has => absurd has without, .inr fun has => absurd has without⟩, drawn_of_none none_⟩

theorem Taken.drawn {events : List TerminalEvent} {resumed : Bool}
    (taken : Taken artifact events a b resumed) (among : events ⊆ log)
    (rested : Checkpointed artifact a) (has : (wait? a).isSome = true) (drawn : EvidenceDrawn log a) :
    EvidenceDrawn log b := by
  obtain ⟨evidence, entries, checkpoint⟩ := rested has
  obtain ⟨added, new, after⟩ := taken.grows _ _ checkpoint
  exact after.drawn ((drawn _ checkpoint.stored).append (new.more among))

theorem Spares.grounds (spares : Spares a b) (waits : hasStatus b "waiting" = true ∨ Received b)
    (grounds : Grounds log artifact a) : Grounds log artifact b :=
  ⟨⟨spares.checkpointed grounds.rested.checkpointed, waits⟩,
    grounds.drawn.of_same (spares.reads _ (by decide))⟩

/-- The token of a turn that begins. -/
theorem sync_grounds {now : String} {events : List TerminalEvent} (among : events ⊆ log)
    (grounds : Grounds log artifact a) (did : syncTerminalEvents now events a = some b)
    (awake : hasStatus b "waiting" = false) : Attended artifact b ∧ EvidenceDrawn log b := by
  refine ⟨(sync_attended grounds.rested did awake).1, ?_⟩
  cases waiting : isWaiting a with
  | false =>
    unfold syncTerminalEvents at did
    rw [if_pos (by simp [waiting])] at did
    obtain rfl := Option.some.inj did
    exact grounds.drawn
  | true =>
    obtain ⟨resumed, taken⟩ := @sync_taken artifact _ _ _ _ waiting did
    exact taken.drawn among grounds.rested.checkpointed (Bool.and_eq_true_iff.mp waiting).2 grounds.drawn

/-- A wait that is entered takes its evidence from the log. -/
theorem wait_after_output_drawn {now runId : String} {latest : Int} {events : List TerminalEvent}
    {node observation : Json} {turnAccept : Int} {waits resumed : Bool} (among : events ⊆ log)
    (did : waitAfterOutput now runId latest events artifact node observation turnAccept a =
      some (b, waits, resumed)) (drawn : EvidenceDrawn log a) : EvidenceDrawn log b := by
  unfold waitAfterOutput at did
  split at did
  · obtain ⟨rfl, -⟩ := Prod.mk.inj (Option.some.inj did)
    exact drawn
  · obtain ⟨entered, enter, did⟩ := Option.bind_eq_some_iff.mp did
    obtain ⟨⟨consumed, took⟩, consume, did⟩ := Option.bind_eq_some_iff.mp did
    obtain ⟨rfl, -⟩ := Prod.mk.inj (Option.some.inj did)
    obtain ⟨⟨entries, checkpoint⟩, waiting, opens, -⟩ := enter_wait_checkpoint enter
    have taken : Taken artifact events entered consumed took :=
      consume_pending_taken opens waiting consume
    exact taken.drawn among (fun _ => ⟨_, _, checkpoint⟩) opens (checkpoint.drawn (.nil _))

theorem merge_evidence_drawn {now nodeId : String} {observation : Json} {results : List RequirementResult}
    (isResults : requirementResults observation = results.map requirementResultJson)
    (validated : Validated artifact a results) (attended : Attended artifact a)
    (merged : mergeEvidenceProgress now nodeId artifact observation a = some b)
    (drawn : EvidenceDrawn log a) : EvidenceDrawn log b :=
  drawn.of_same (merge_evidence_merges isResults validated attended.checkpointed attended.received
    merged).stored

/-- A node's interaction takes evidence from the log only. -/
theorem interaction_drawn {now runId : String} {latest : Int} {events : List TerminalEvent}
    {node observation token : Json} {turnAccept : Int} {applied : Applied}
    {results : List RequirementResult} (among : events ⊆ log) (attended : Attended artifact token)
    (isResults : isEvaluation node = true →
      requirementResults observation = results.map requirementResultJson ∧
        Validated artifact token results)
    (did : applyNodeInteraction now runId latest events artifact node observation turnAccept token =
      applied) (kept : isRecoverable applied.token = true ∨ ∃ waits, applied.outcome = .ok waits)
    (drawn : EvidenceDrawn log token) : EvidenceDrawn log applied.token := by
  unfold applyNodeInteraction at did
  split at did
  · subst did
    exact drawn
  simp only at did
  split at did
  · subst did
    exact drawn
  rename_i ledgered ledger
  have ledgerDrawn : EvidenceDrawn log ledgered := by
    split at ledger
    · rename_i evaluates
      obtain ⟨isResults, validated⟩ := isResults evaluates
      exact merge_evidence_drawn isResults validated attended ledger drawn
    · obtain rfl := Option.some.inj ledger
      exact drawn
  split at did
  · subst did
    rcases kept with recoverable | ⟨waits, ok⟩
    · rw [half_wait_unrecoverable] at recoverable
      cases recoverable
    · cases ok
  · rename_i waited enteredWait resumed wait
    subst did
    exact (wait_after_output_drawn among wait ledgerDrawn).of_same
      (conclude_spares.reads _ (by decide))

end Tokens

/-! ### Over a run -/

/-- Every stored token rests on the stream of its run, and every turn works on evidence from there. -/
structure Grounded (s : System) : Prop where
  leaves : LeavesCheckpoints s.rows.artifact
  snapshots : ∀ snapshot ∈ s.rows.snapshots, Grounds s.rows.events s.rows.artifact snapshot.token
  turns : ∀ attempt turn, s.attempts attempt = .looping turn →
    Attended s.rows.artifact turn.token ∧ EvidenceDrawn s.rows.events turn.token

section Grounded

variable {platform : Platform} {s t : System} {e : Event}

theorem compact_grounds {log : List TerminalEvent} {artifact token : Json} (sha256 : String → String)
    (grounds : Grounds log artifact token) :
    Grounds log artifact (compactRuntimeToken sha256 token) :=
  have spares := compact_spares sha256 token
  spares.grounds (grounds.rested.waits.imp (compact_status sha256 token "waiting").trans spares.received)
    grounds

theorem Commits.isNode {attempt : Nat} {turn : Turn} {outcome : AgentOutcome} {supply : Supply}
    {node observation charged merged : Json} {shown : Rows}
    (commits : Commits platform s attempt turn outcome supply node observation charged merged shown) :
    node ∈ artifactNodes s.rows.artifact :=
  List.mem_of_mem_filter (select_mem commits.selected.selected)

/-- A node's token, where it is stored or recovered from. -/
theorem Commits.grounds {attempt : Nat} {turn : Turn} {outcome : AgentOutcome} {supply : Supply}
    {node observation charged merged : Json} {shown : Rows} (ok : Grounded s)
    (commits : Commits platform s attempt turn outcome supply node observation charged merged shown)
    (kept : isRecoverable (interacted platform s turn node observation merged).token = true ∨
      ∃ waits, (interacted platform s turn node observation merged).outcome = .ok waits) :
    Grounds s.rows.events s.rows.artifact (interacted platform s turn node observation merged).token ∧
      ((interacted platform s turn node observation merged).outcome = .ok false →
        Received (interacted platform s turn node observation merged).token) := by
  obtain ⟨attended, drawn⟩ := ok.turns _ _ commits.selected.looping
  have leaves := ok.leaves node commits.isNode
  obtain ⟨made, ran, merge⟩ := commits.merge
  have spares := (budgets_spare (execute_node_writes ran)).trans
    (merge_spares leaves.toLeavesLedger merge)
  have results : ∃ results, isEvaluation node = true →
      requirementResults observation = results.map requirementResultJson ∧
        Validated s.rows.artifact merged results := by
    by_cases evaluates : isEvaluation node = true
    · obtain ⟨results, isResults, validated⟩ := execute_results ran evaluates
      have same := merge_results leaves.toLeavesLedger evaluates merge
      exact ⟨results, fun _ => ⟨same.trans isResults, validated.spared spares⟩⟩
    · exact ⟨[], fun evaluation => absurd evaluation evaluates⟩
  obtain ⟨results, isResults⟩ := results
  have still := spares.attended attended
  have left := interaction_leaves leaves still isResults rfl kept
  exact ⟨⟨left.rested, interaction_drawn (List.Subset.refl _) still isResults rfl kept
    (drawn.of_same (spares.reads _ (by decide)))⟩, left.received⟩

/-- The token of a turn that fails rests on the stream, where it can be recovered. -/
theorem Fails.grounds {attempt : Nat} {leased : Bool} {token : Json} {waits : List WaitMark}
    {expected : Nat} {rows : Rows} (ok : Grounded s)
    (fails : Fails platform s attempt e leased token waits expected rows)
    (recoverable : isRecoverable token = true) : Grounds s.rows.events s.rows.artifact token := by
  have held : ∀ {attempt turn}, s.attempts attempt = .looping turn →
      Grounds s.rows.events s.rows.artifact turn.token := fun looping =>
    ⟨(ok.turns _ _ looping).1.rested, (ok.turns _ _ looping).2⟩
  cases fails with
  | starting _ _ last =>
    exact compact_grounds _ (ok.snapshots _ (List.mem_of_getLast? last))
  | looping looping => exact held looping
  | executing selected => exact held selected.looping
  | merging selected ran =>
    have spares := budgets_spare (execute_node_writes ran)
    exact spares.grounds (.inr (spares.received (ok.turns _ _ selected.looping).1.received))
      (held selected.looping)
  | applying commits => exact (commits.grounds ok (.inl recoverable)).1

theorem stores_grounds (ok : Grounded s) (stores : Stores platform s e t)
    (more : s.rows.events ⊆ t.rows.events) (artifact : t.rows.artifact = s.rows.artifact) :
    ∀ snapshot ∈ t.rows.snapshots, Grounds t.rows.events t.rows.artifact snapshot.token := by
  rw [artifact]
  have old : ∀ snapshot ∈ s.rows.snapshots, Grounds t.rows.events s.rows.artifact snapshot.token :=
    fun snapshot stored => (ok.snapshots snapshot stored).more more
  have added : ∀ {new : Snapshot} {rows : Rows}, AddsSnapshot s.rows rows new →
      Grounds s.rows.events s.rows.artifact new.token →
      ∀ snapshot ∈ rows.snapshots, Grounds t.rows.events s.rows.artifact snapshot.token := by
    intro new rows adds grounds snapshot stored
    rw [adds.1] at stored
    rcases List.mem_append.mp stored with before | isNew
    · exact old _ before
    · rw [List.mem_singleton.mp isNew]
      exact grounds.more more
  cases stores with
  | kept kept =>
    rw [kept.1]
    exact old
  | @cancelled _ _ _ new _ adds cancelled =>
    refine added adds (grounds_of_none ?_)
    have view := cancel_token_view cancelled
    have gone : (wait? new.token).isSome = false := by
      rw [← window_isSome, view]
      rfl
    simpa using gone
  | stepped commits applied adds _ isToken =>
    exact added adds (isToken ▸ (commits.grounds ok (.inr ⟨_, applied⟩)).1)
  | recovered fails recoverable _ _ adds _ recovers =>
    obtain ⟨fs, gs, hs, has, -⟩ := recoverable_wait recoverable
    obtain ⟨spares, waiting⟩ := recover_spares (by rw [has]; rfl) recovers
    exact added adds (spares.grounds (.inl waiting) (fails.grounds ok recoverable))

/-- **A step keeps the ground under its run.** -/
theorem move_grounded (ok : Grounded s) (move : Move platform s e t) : Grounded t := by
  have grows := move_grows move
  have more : s.rows.events ⊆ t.rows.events := grows.events.subset
  refine ⟨grows.artifact ▸ ok.leaves, stores_grounds ok (move_stores move) more grows.artifact, ?_⟩
  have old : ∀ {attempt turn}, s.attempts attempt = .looping turn →
      Attended t.rows.artifact turn.token ∧ EvidenceDrawn t.rows.events turn.token := fun looping =>
    ⟨grows.artifact ▸ (ok.turns _ _ looping).1, (ok.turns _ _ looping).2.more more⟩
  cases move with
  | tick | repeated | appended | cancelled | renewed | released | exhausted => exact fun _ _ => old
  | stopped | claimed => exact fun _ _ looping => old (turns_of_set looping (by simp))
  | settled | rested | recovered | failed | waited | aborted | succeeded | halted =>
    exact fun _ _ looping => old (ended_turns _ _ looping)
  | begun _ _ _ last _ sync awake =>
    intro other turn looping
    rcases looping_of_set looping with new | before
    · obtain rfl := Attempt.looping.inj new
      exact sync_grounds (List.Subset.refl _)
        (compact_grounds _ (ok.snapshots _ (List.mem_of_getLast? last))) sync awake
    · exact old before
  | advanced commits goesOn =>
    intro other turn looping
    rcases looping_of_set looping with new | before
    · obtain rfl := Attempt.looping.inj new
      obtain ⟨grounds, received⟩ := commits.grounds ok (.inr ⟨_, goesOn⟩)
      exact ⟨grows.artifact ▸ ⟨grounds.rested.checkpointed, received goesOn⟩, grounds.drawn.more more⟩
    · exact old before

theorem created_grounded {artifact : Json} (leaves : LeavesCheckpoints artifact) (runId : String)
    (maxAttempts now : Nat) : Grounded (created artifact runId maxAttempts now) := by
  refine ⟨leaves, fun snapshot stored => ?_, fun _ _ looping => ?_⟩
  · obtain rfl := List.mem_singleton.mp stored
    exact grounds_of_none rfl
  · cases looping

theorem run_grounded_all {artifact : Json} {runId : String} {maxAttempts now : Nat}
    (leaves : LeavesCheckpoints artifact)
    (run : Run (step platform) anyStep (created artifact runId maxAttempts now) t) : Grounded t :=
  run.invariant (fun _ _ _ ok _ stepped => move_grounded ok (step_move stepped))
    (created_grounded leaves runId maxAttempts now)

/-- **The ground of every stored token**: where it has a wait, the evidence of the wait is of inputs of the
run, each consumed at this checkpoint, the ledger belongs to the step of the wait and what it accepts
cites the evidence, and unless the token waits its latest evidence is among it. -/
theorem run_grounded {artifact : Json} {runId : String} {maxAttempts now : Nat}
    (leaves : LeavesCheckpoints artifact)
    (run : Run (step platform) anyStep (created artifact runId maxAttempts now) t) :
    ∀ snapshot ∈ t.rows.snapshots, (wait? snapshot.token).isSome = true →
      ∃ evidence entries, Checkpoint t.rows.artifact snapshot.token evidence entries ∧
        Drawn t.rows.events evidence ∧
        (∀ entry ∈ entries, Proven t.rows.events snapshot.token entry) ∧
        (hasStatus snapshot.token "waiting" = false → ∃ latest ∈ evidence,
          snapshot.token.at? ["control", "latest_evidence"] = some latest) := by
  intro snapshot stored has
  have grounds := (run_grounded_all leaves run).snapshots snapshot stored
  have rounds := grounds.rounds has
  obtain ⟨evidence, checkpoint, drawn⟩ := rounds.checkpoint
  refine ⟨evidence, _, checkpoint, drawn, rounds.proven, fun awake => ?_⟩
  obtain ⟨evidence', latest, isEvidence, isLatest, latestRead⟩ := rounds.received awake has
  obtain rfl := Json.arr.inj (Option.some.inj (checkpoint.stored.symm.trans isEvidence))
  exact ⟨latest, isLatest, latestRead⟩

end Grounded

/-- The evaluation of the small scaffold is stored over a ledger with its input. -/
theorem run_grounded_brewing :
    ∃ artifact t snapshot evidence entries, Compiler.accepted (Compiler.brewCandidate
        (Compiler.scaffoldNodes "brew" [Compiler.brewStep]) []) = some artifact ∧
      Run (step plainPlatform) anyStep (created artifact "run-1" 3 0) t ∧
      snapshot ∈ t.rows.snapshots ∧ snapshot.selected = some "evaluate_brew" ∧
      Checkpoint t.rows.artifact snapshot.token evidence entries ∧ Drawn t.rows.events evidence ∧
      (∀ entry ∈ entries, Proven t.rows.events snapshot.token entry) := by
  obtain ⟨artifact, t, stored, ran, waits⟩ := checked_run (show
    ((Compiler.accepted (Compiler.brewCandidate (Compiler.scaffoldNodes "brew"
      [Compiler.brewStep]) [])).bind fun artifact =>
      if LeavesCheckpoints artifact then
        follow (step plainPlatform) anyStep (created artifact "run-1" 3 0) (brewTurns ++
          [.claim 2 100, .begin 2 true (plainSupply "4"),
            .turn 2 (brewVerdict .continue_) (plainSupply "5")])
      else none).any (fun t => t.rows.lastSnapshot?.any fun snapshot =>
        snapshot.selected == some "evaluate_brew" && (wait? snapshot.token).isSome) = true by
    decide +kernel)
  split at ran
  · rename_i leaves
    obtain ⟨snapshot, isLast, waits⟩ := (Option.any_eq_true ..).mp waits
    obtain ⟨selected, has⟩ := Bool.and_eq_true_iff.mp waits
    have run := run_of_follow ran
    have isIn := List.mem_of_getLast? isLast
    obtain ⟨evidence, entries, checkpoint, drawn, proven, -⟩ := run_grounded leaves run snapshot isIn has
    exact ⟨artifact, t, snapshot, evidence, entries, stored, run, isIn, beq_iff_eq.mp selected, checkpoint,
      drawn, proven⟩
  · cases ran

end Psop.Runtime
