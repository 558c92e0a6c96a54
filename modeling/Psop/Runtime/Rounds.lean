import Psop.Runtime.Checkpoint
import Psop.Runtime.NodeView

/-!
The rounds of one checkpoint.

A wait is entered with an empty ledger, one entry for each requirement of its step. Then, in any order
and number, inputs are taken in, observations are validated against the evidence taken so far and merged
into the ledger, the wait is reopened for more, and the rest of the token is written to as a turn sees
fit. **`evaluation_sound`** says what an accepted observation vouches for at any such point, and
**`ledger_rounds`** what becomes of the ledger over all of them.
-/
namespace Psop.Runtime

open Json Psop.Runner

/-! ### Rounds -/

/-- What the rounds of a checkpoint read and write; a turn writes its budgets, observations, facts and
the like elsewhere. -/
def roundPaths : List (List String) :=
  [["control", "wait"], ["control", "terminal_consumption"], ["control", "latest_evidence"]] ++
    checkpointPaths

inductive Round where
  /-- The inputs that are there when the wait is entered. -/
  | pull (now : String) (latest : Int) (events : List TerminalEvent)
  /-- The inputs at the start of a turn. -/
  | sync (now : String) (events : List TerminalEvent)
  | evaluate (now runId projectionRef : String) (node : Json) (outcome : AgentOutcome)
  | reopen (observation : Json)
  /-- A recoverable failure of a turn. -/
  | recover (now error : String) (trace : TraceRef) (event : Option TerminalEvent)
  | compact (sha256 : String → String)
  | write (path : List String) (value : Json)

/-- An evaluation runs on a token that does not wait. Its observation is merged by the operations of its
node, and then into the ledger. -/
def evaluateRound (now runId projectionRef : String) (artifact node token : Json)
    (outcome : AgentOutcome) : Option Json :=
  if isEvaluation node = true ∧ hasStatus token "waiting" = false then
    match executeNode now runId projectionRef artifact node token outcome with
    | .ok (observation, token) => (mergeObservation node observation token).bind fun merge =>
        mergeEvidenceProgress now (nodeId node) artifact merge.2 merge.1
    | .error _ => none
  else none

def roundStep (artifact token : Json) : Round → Option Json
  | .pull now latest events =>
      if hasStatus token "waiting" then
        (consumePendingTerminalInputs now latest events token).map Prod.fst
      else none
  | .sync now events =>
      if isWaiting token then syncTerminalEvents now events token else none
  | .evaluate now runId projectionRef node outcome =>
      evaluateRound now runId projectionRef artifact node token outcome
  | .reopen observation =>
      if hasStatus token "waiting" then none else (reopenWait observation token).map Prod.fst
  | .recover now error trace event => recoverTerminalTurnToken now error trace event token
  | .compact sha256 => some (compactRuntimeToken sha256 token)
  | .write path value =>
      if (∀ p ∈ roundPaths, Apart path p) ∧ (Apart path ["status"] ∨ hasStatus token "waiting" = false)
      then token.put? path value else none

/-! ### The ledger of a token -/

def ledgerEntries (token : Json) : List Json :=
  (((token.at? ["control", "evidence_progress"]).getD null).field "requirements").items

/-- The events a round reads. -/
def Round.events : Round → List TerminalEvent
  | .pull _ _ events | .sync _ events => events
  | .evaluate .. | .reopen _ | .recover .. | .compact _ | .write .. => []

/-- The node of an evaluation leaves the checkpoint to the runtime. -/
def Round.Leaves : Round → Prop
  | .evaluate _ _ _ node _ => LeavesLedger node
  | .pull .. | .sync .. | .reopen _ | .recover .. | .compact _ | .write .. => True

/-- The rounds read the events of a run, and their evaluations leave the checkpoint to the runtime. -/
structure Reads (log : List TerminalEvent) (token : Json) (round : Round) : Prop where
  events : round.events ⊆ log
  leaves : round.Leaves

/-- A token within the rounds of its checkpoint. -/
structure InRounds (log : List TerminalEvent) (artifact token : Json) : Prop where
  has : (wait? token).isSome = true
  rested : Rested artifact token
  drawn : ∀ items, token.at? ["control", "wait", "evidence"] = some (arr items) → Drawn log items

section Rounds

variable {log : List TerminalEvent} {artifact a b : Json}

theorem Checkpoint.ledgerEntries {evidence entries : List Json}
    (checkpoint : Checkpoint artifact a evidence entries) : ledgerEntries a = entries := by
  obtain ⟨fs, stored, listed, -⟩ := checkpoint.progress
  rw [Runtime.ledgerEntries, stored, Option.getD_some, field_obj, listed]
  rfl

theorem InRounds.checkpoint (ok : InRounds log artifact a) :
    ∃ evidence, Checkpoint artifact a evidence (ledgerEntries a) ∧ Drawn log evidence := by
  obtain ⟨evidence, entries, checkpoint⟩ := ok.rested.checkpointed ok.has
  exact ⟨evidence, checkpoint.ledgerEntries ▸ checkpoint, ok.drawn _ checkpoint.stored⟩

theorem Checkpoint.drawn {evidence entries : List Json}
    (checkpoint : Checkpoint artifact a evidence entries) (drawn : Drawn log evidence) :
    ∀ items, a.at? ["control", "wait", "evidence"] = some (arr items) → Drawn log items := by
  intro items stored
  obtain rfl := Json.arr.inj (Option.some.inj (checkpoint.stored.symm.trans stored))
  exact drawn

/-- What a round does to a ledger. -/
structure Goes (log : List TerminalEvent) (artifact a b : Json) : Prop where
  inRounds : InRounds log artifact b
  advance : List.Forall₂ Advance (ledgerEntries a) (ledgerEntries b)
  releases : List.Forall₂ Releases (ledgerEntries a) (ledgerEntries b)

/-- A ledger that stays. -/
theorem goes_of_same (inRounds : InRounds log artifact b) (same : ledgerEntries b = ledgerEntries a) :
    Goes log artifact a b := by
  refine ⟨inRounds, ?_, ?_⟩
  · rw [same]
    exact List.forall₂_same.mpr fun _ _ => .refl _
  · rw [same]
    exact List.forall₂_same.mpr fun _ _ => .inl

theorem Taken.goes {events : List TerminalEvent} {resumed : Bool}
    (taken : Taken artifact events a b resumed) (reads : events ⊆ log) (ok : InRounds log artifact a)
    (waiting : hasStatus a "waiting" = true) : Goes log artifact a b := by
  obtain ⟨evidence, checkpoint, drawn⟩ := ok.checkpoint
  obtain ⟨added, new, after⟩ := taken.grows _ _ checkpoint
  have drawn' : Drawn log (evidence ++ added) := drawn.append fun item isItem =>
    (new item isItem).imp fun _ found => ⟨reads found.1, found.2⟩
  refine goes_of_same ⟨taken.same.waiting.trans ok.has, ⟨fun _ => ⟨_, _, after⟩, ?_⟩,
    after.drawn drawn'⟩ after.ledgerEntries
  cases resumed with
  | true => exact .inr (taken.received rfl ⟨_, _, checkpoint⟩)
  | false => exact .inl ((status_read (taken.status rfl) "waiting").trans waiting)

theorem Merges.goes (merges : Merges artifact a b) (ok : InRounds log artifact a)
    (received : Received a) : Goes log artifact a b := by
  obtain ⟨evidence, checkpoint, drawn⟩ := ok.checkpoint
  obtain ⟨entries, after, advance, releases⟩ := merges.ledger _ _ checkpoint
  refine ⟨⟨merges.waiting.trans ok.has, ⟨fun _ => ⟨_, _, after⟩, .inr (merges.received received)⟩,
    after.drawn drawn⟩, ?_, ?_⟩
  · rw [after.ledgerEntries]
    exact advance
  · rw [after.ledgerEntries]
    exact releases

theorem Spares.entries (spares : Spares a b) : ledgerEntries b = ledgerEntries a := by
  rw [ledgerEntries, spares.reads _ (by decide), ← ledgerEntries]

theorem budgets_spare (writes : Writes [["budgets"]] a b) : Spares a b :=
  spares_of_writes writes (by decide)

/-- The operations of a node that leaves the checkpoint alone. -/
theorem merge_spares {node observation seen : Json} (leaves : LeavesLedger node)
    (merged : mergeObservation node observation a = some (b, seen)) : Spares a b := by
  have kept : ∀ p ∈ keptPaths, b.at? p = a.at? p := by
    intro p isPath
    refine merge_observation_read (fun operation isOperation => leaves.merges operation isOperation p isPath)
      ?_ merged
    revert p
    decide
  refine ⟨fun p isPath => kept p (by simp [keptPaths, isPath]), kept _ (by simp [keptPaths]), ?_, ?_⟩
  · rw [consumption, consumption, kept _ (by simp [keptPaths])]
  · rw [wait?, wait?, kept _ (by simp [keptPaths])]

/-- They leave what it assesses as well. -/
theorem merge_results {node observation seen : Json} (leaves : LeavesLedger node)
    (evaluates : isEvaluation node = true)
    (merged : mergeObservation node observation a = some (b, seen)) :
    requirementResults seen = requirementResults observation := by
  have same := merge_observation_spares (by decide) (by decide) (leaves.assesses evaluates) merged
  have reads : ∀ j : Json, requirementResults j =
      ((j.field "evidence_assessment").field "requirement_results").items := by
    intro j
    rw [requirementResults, at?_cons, field_read "requirement_results"]
    change _ = ((at? ["requirement_results"] ((j.field? "evidence_assessment").getD null)).getD null).items
    cases j.field? "evidence_assessment" <;> rfl
  rw [reads, reads, same]

/-- A checkpoint that is spared stays as it is. -/
theorem Spares.goes (spares : Spares a b) (ok : InRounds log artifact a)
    (waits : hasStatus b "waiting" = true ∨ Received b) : Goes log artifact a b := by
  refine goes_of_same ⟨spares.waiting.trans ok.has, ⟨?_, waits⟩, fun items stored => ?_⟩ spares.entries
  · exact spares.checkpointed ok.rested.checkpointed
  · exact ok.drawn items ((spares.reads _ (by decide)).symm.trans stored)

/-- A recovery leaves the checkpoint alone and waits again. -/
theorem recover_spares {now error : String} {trace : TraceRef} {event : Option TerminalEvent}
    (has : (wait? a).isSome = true)
    (recovered : recoverTerminalTurnToken now error trace event a = some b) :
    Spares a b ∧ hasStatus b "waiting" = true := by
  unfold recoverTerminalTurnToken at recovered
  obtain ⟨noted, notes, recovered⟩ := Option.bind_eq_some_iff.mp recovered
  obtain ⟨c, error, recovered⟩ := Option.bind_eq_some_iff.mp recovered
  obtain ⟨d, status, recovered⟩ := Option.bind_eq_some_iff.mp recovered
  obtain ⟨e, phase, appended⟩ := Option.bind_eq_some_iff.mp recovered
  have first : Spares a noted := by
    unfold noteFailure at notes
    split at notes
    · rename_i none_
      rw [none_] at has
      cases has
    · obtain ⟨waited, wait, push⟩ := Option.bind_eq_some_iff.mp notes
      have waits := spares_below_wait (by decide) has wait
      exact waits.trans (spares_below_wait (by decide) (waits.waiting.trans has) push)
  have copies := append_if_next_writes appended
  have rest : Writes [["control", "latest_processing_error"], ["status"], ["phase"]] noted e :=
    ((Writes.put error).trans (.put status)).trans (.put phase)
  refine ⟨first.trans ((spares_of_writes rest (by decide)).trans (spares_of_writes copies (by decide))),
    ?_⟩
  rw [status_read (copies.read (by decide)), status_read (at?_put?_apart (by decide) phase)]
  exact status_written status

/-- A token that does not wait has received its evidence. -/
theorem InRounds.received (ok : InRounds log artifact a) (awake : hasStatus a "waiting" = false) :
    Received a := by
  refine ok.rested.waits.resolve_left ?_
  rw [awake]
  exact Bool.false_ne_true

theorem evaluate_goes {now runId projectionRef : String} {node : Json} {outcome : AgentOutcome}
    (ok : InRounds log artifact a) (leaves : LeavesLedger node)
    (did : evaluateRound now runId projectionRef artifact node a outcome = some b) :
    Goes log artifact a b := by
  unfold evaluateRound at did
  split at did
  · rename_i may
    obtain ⟨evaluates, awake⟩ := may
    split at did
    · rename_i observation charged ran
      obtain ⟨⟨noted, seen⟩, notes, did⟩ := Option.bind_eq_some_iff.mp did
      have received := ok.received awake
      have spares := (budgets_spare (execute_node_writes ran)).trans (merge_spares leaves notes)
      obtain ⟨results, isResults, validated⟩ := execute_results ran evaluates
      have merges := merge_evidence_merges ((merge_results leaves evaluates notes).trans isResults)
        (validated.spared spares)
        (spares.checkpointed ok.rested.checkpointed) (spares.received received) did
      exact (Merges.after spares merges).goes ok received
    · cases did
  · cases did

/-- **One round** keeps the checkpoint, and its ledger goes on. -/
theorem round_goes {round : Round} (ok : InRounds log artifact a) (reads : Reads log a round)
    (did : roundStep artifact a round = some b) : Goes log artifact a b := by
  cases round with
  | pull now latest events =>
    simp only [roundStep] at did
    split at did
    · rename_i waiting
      obtain ⟨⟨token, resumed⟩, took, rfl⟩ := Option.map_eq_some_iff.mp did
      exact (consume_pending_taken ok.has waiting took).goes reads.events ok waiting
    · cases did
  | sync now events =>
    simp only [roundStep] at did
    split at did
    · rename_i waiting
      obtain ⟨resumed, taken⟩ := @sync_taken artifact _ _ _ _ waiting did
      exact taken.goes reads.events ok (Bool.and_eq_true_iff.mp waiting).1
    · cases did
  | evaluate now runId projectionRef node outcome => exact evaluate_goes ok reads.leaves did
  | reopen observation =>
    simp only [roundStep] at did
    split at did
    · cases did
    · rename_i awake
      obtain ⟨⟨token, waits⟩, reopened, rfl⟩ := Option.map_eq_some_iff.mp did
      have spares := reopen_wait_spares reopened
      have received := ok.received (by simpa using awake)
      exact spares.goes ok (.inr (spares.received received))
  | recover now error trace event =>
    obtain ⟨spares, waiting⟩ := recover_spares ok.has did
    exact spares.goes ok (.inl waiting)
  | compact sha256 =>
    obtain rfl := Option.some.inj did
    have spares := compact_spares sha256 a
    exact spares.goes ok (ok.rested.waits.imp (compact_status sha256 a "waiting").trans spares.received)
  | write path value =>
    simp only [roundStep] at did
    split at did
    · rename_i beside
      obtain ⟨beside, keeps⟩ := beside
      have spares : Spares a b := spares_of_writes (.put did) fun p isPath q isQ => by
        obtain rfl := List.mem_singleton.mp isQ
        refine beside p ?_
        revert p
        decide
      refine spares.goes ok ?_
      rcases keeps with apart | awake
      · have status : b.at? ["status"] = a.at? ["status"] := at?_put?_apart apart did
        exact ok.rested.waits.imp (status_read status "waiting").trans spares.received
      · exact .inr (spares.received (ok.received awake))
    · cases did

end Rounds

/-! ### The ledger over a checkpoint -/

/-- An entry keeps its key and what was declared of it, and its lists of references grow, without a
reference twice. -/
structure Grown (entry entry' : Json) : Prop where
  key : requirementKey entry' = requirementKey entry
  declared : ∀ key, key ∉ assessedFields → entry'.field? key = entry.field? key
  lists : ∀ key ∈ listFields, ∃ refs added, Lists key refs entry ∧ Lists key (refs ++ added) entry'

/-- The reference names an input of the run that was consumed at the checkpoint of the token. -/
def NamesConsumed (log : List TerminalEvent) (token : Json) (ref : String) : Prop :=
  ∃ event ∈ log, event.direction = .input ∧
    terminalRefSeq ref = some (event.seqNo : Int) ∧
    ∃ record ∈ consumption token, recordSeq record = some (event.seqNo : Int) ∧
      record.field "checkpoint_id" = str (waitText "checkpoint_id" token)

/-- An accepted requirement has references, each to an input consumed at the checkpoint. -/
def Proven (log : List TerminalEvent) (token entry : Json) : Prop :=
  entryStatus entry = some "accepted" → ∃ refs, Lists "accepted_event_refs" refs entry ∧
    refs ≠ [] ∧ ∀ ref ∈ refs, NamesConsumed log token ref

section Checkpoints

variable {log : List TerminalEvent} {artifact a b : Json}

/-- A wait that was just entered. -/
theorem entered_rounds {now runId : String} {node observation token : Json} {accept : Int}
    (enters : enterWaitCheckpoint now runId node observation artifact accept token = some a) :
    InRounds log artifact a := by
  obtain ⟨⟨entries, checkpoint⟩, waiting, has, -⟩ := enter_wait_checkpoint enters
  exact ⟨has, ⟨fun _ => ⟨_, _, checkpoint⟩, .inl waiting⟩, checkpoint.drawn (.nil _)⟩

/-- What one round after the other makes of a ledger. -/
theorem rounds_advance (ok : InRounds log artifact a) (run : Run (roundStep artifact) (Reads log) a b) :
    InRounds log artifact b ∧ List.Forall₂ Advance (ledgerEntries a) (ledgerEntries b) := by
  induction run with
  | refl => exact ⟨ok, List.forall₂_same.mpr fun _ _ => .refl _⟩
  | tail _ reads goes ih =>
    obtain ⟨ok, advance⟩ := ih
    have one := round_goes ok reads goes
    exact ⟨one.inRounds, @forall_two_trans _ _ _ Advance Advance Advance
      (fun _ _ _ first second => first.trans second) _ _ _ advance one.advance⟩

theorem names_consumed {evidence : List Json} {ref : String}
    (consumed : ∀ item ∈ evidence, Consumed a item) (drawn : Drawn log evidence)
    (names : Names evidence ref) : NamesConsumed log a ref := by
  obtain ⟨item, isItem, seqNo, isRef, number⟩ := names
  have own : ∀ event : TerminalEvent, item = event.evidence → (event.seqNo : Int) = seqNo := by
    rintro event rfl
    have stored : strictInt? (event.evidence.field "seq_no") = some (event.seqNo : Int) := by
      rw [field, event.evidence_seqNo]
      rfl
    exact Option.some.inj (stored.symm.trans number)
  obtain ⟨event, isEvent, input, isItem'⟩ := drawn item isItem
  obtain ⟨taken, -, isTaken, record, isRecord, isSeq, isCheckpoint⟩ := consumed item isItem
  rw [own taken isTaken, ← own event isItem'] at isSeq
  exact ⟨event, isEvent, input, by rw [own event isItem', isRef], record, isRecord, isSeq, isCheckpoint⟩

theorem mem_right {α β : Type} {R : α → β → Prop} {xs : List α} {ys : List β}
    (all : List.Forall₂ R xs ys) {y : β} (isY : y ∈ ys) : ∃ x ∈ xs, R x y := by
  induction all with
  | nil => cases isY
  | cons holds _ ih =>
    rcases List.mem_cons.mp isY with rfl | later
    · exact ⟨_, List.mem_cons_self, holds⟩
    · obtain ⟨x, isX, holds⟩ := ih later
      exact ⟨x, List.mem_cons_of_mem _ isX, holds⟩

/-- The entries of a ledger within its rounds. -/
theorem InRounds.backed (ok : InRounds log artifact a) : ∃ evidence, Checkpoint artifact a evidence
    (ledgerEntries a) ∧ Drawn log evidence ∧ ∀ entry ∈ ledgerEntries a, Backed evidence entry := by
  obtain ⟨evidence, checkpoint, drawn⟩ := ok.checkpoint
  refine ⟨evidence, checkpoint, drawn, fun entry isEntry => ?_⟩
  obtain ⟨requirement, -, kept⟩ := mem_right checkpoint.ledger isEntry
  exact kept.backed

theorem InRounds.proven (ok : InRounds log artifact a) : ∀ entry ∈ ledgerEntries a, Proven log a entry := by
  obtain ⟨evidence, checkpoint, drawn, backed⟩ := ok.backed
  intro entry isEntry accepted
  obtain ⟨refs, lists, names, some_⟩ := (backed entry isEntry).accepted
  exact ⟨refs, lists, some_ accepted, fun ref isRef =>
    names_consumed checkpoint.consumed drawn (names ref isRef)⟩

theorem Advance.grown {evidence : List Json} {entry entry' : Json} (advance : Advance entry entry')
    (backed : Backed evidence entry) : Grown entry entry' := by
  refine ⟨?_, advance.declared, fun key isList => ?_⟩
  · rw [requirementKey, field, advance.declared _ (by decide)]
    rfl
  · have lists : ∃ refs, Lists key refs entry := by
      simp only [listFields, List.mem_cons, List.not_mem_nil, or_false] at isList
      rcases isList with rfl | rfl
      · obtain ⟨refs, lists, -⟩ := backed.accepted
        exact ⟨refs, lists⟩
      · exact backed.rejected
    obtain ⟨refs, lists⟩ := lists
    obtain ⟨added, after⟩ := advance.grows key isList refs lists
    exact ⟨refs, added, lists, after⟩

end Checkpoints

/-! ### What an accepted observation vouches for -/

/-- What an observation that was accepted for a token says of its checkpoint. -/
structure Vouches (log : List TerminalEvent) (artifact node token : Json) (context : RunnerContext)
    (candidate validated : RunnerObservation) : Prop where
  once : ∀ entry ∈ ledgerEntries token,
    (candidate.evidenceAssessment.requirementResults.map resultKey).count (requirementKey entry) = 1
  cites : ∀ result ∈ candidate.evidenceAssessment.requirementResults, result.status = .accepted →
    cleanRefs result.eventRefs ≠ []
  events : ∀ result ∈ candidate.evidenceAssessment.requirementResults,
    ∀ ref ∈ cleanRefs result.eventRefs, NamesConsumed log token ref ∧ Visible context ref
  shows : ∀ result ∈ candidate.evidenceAssessment.requirementResults, result.status = .accepted →
    ∃ entry ∈ ledgerEntries token, requirementKey entry = resultKey result ∧
      ∃ option ∈ declaredOptions entry, ∃ ref ∈ cleanRefs result.eventRefs,
        MatchesOption context ref option
  required : ∀ result ∈ candidate.evidenceAssessment.requirementResults,
    result.status = .notApplicable → ∀ entry ∈ ledgerEntries token,
      requirementKey entry = resultKey result → isRequired entry = false
  latest : ∃ latest seqNo, token.at? ["control", "latest_evidence"] = some latest ∧
    strictInt? (latest.field "seq_no") = some seqNo ∧
    ∃ ref ∈ cleanRefs candidate.evidenceAssessment.evaluatedEventRefs, terminalRefSeq ref = some seqNo
  resolved : candidate.decision = .continue_ → ∀ entry ∈ ledgerEntries token,
    isRequired entry = true → ∃ result ∈ candidate.evidenceAssessment.requirementResults,
      resultKey result = requirementKey entry ∧ result.status = .accepted
  merged : candidate.decision = .continue_ → LeavesLedger node →
    ∀ now nodeId agentRunId usage added charged noted seen token', Writes [["budgets"]] token charged →
    mergeObservation node (mapRunnerObservation agentRunId usage added validated) charged =
      some (noted, seen) →
    mergeEvidenceProgress now nodeId artifact seen noted = some token' →
    ∀ entry ∈ ledgerEntries token', isRequired entry = true → entryStatus entry = some "accepted"

section Evaluations

variable {log : List TerminalEvent} {artifact a : Json}

/-- The keys of a ledger are trimmed and not empty. -/
theorem InRounds.named (ok : InRounds log artifact a) : ∀ entry ∈ ledgerEntries a,
    entryKey entry = requirementKey entry ∧ requirementKey entry ≠ "" := by
  obtain ⟨evidence, checkpoint, -⟩ := ok.checkpoint
  intro entry isEntry
  obtain ⟨requirement, isRequirement, kept⟩ := mem_right checkpoint.ledger isEntry
  obtain ⟨trimmed, named⟩ := (evidence_requirements_declare isRequirement).trimmed
  rw [entryKey, ← requirementKey, kept.key]
  exact ⟨trimmed, named⟩

theorem applied_required {now nodeId : String} {result : RequirementResult} {entry entry' : Json}
    (applied : applyResult now nodeId (requirementResultJson result) entry = some entry') :
    isRequired entry' = isRequired entry := by
  rw [isRequired, (apply_result_spec applied).declared _ (by decide)]
  rfl

/-- The ledger after a merge. -/
theorem merged_entries {now nodeId : String} {observation token' : Json} {evidence entries : List Json}
    (checkpoint : Checkpoint artifact a evidence entries)
    (some_ : (requirementResults observation).isEmpty = false)
    (merged : mergeEvidenceProgress now nodeId artifact observation a = some token') :
    ledgerEntries token' =
      (requirementResults observation).foldl (mergeResult now nodeId) entries := by
  obtain ⟨filled, fs, -, -, listed, -, put⟩ := merge_evidence_spec checkpoint some_ merged
  rw [ledgerEntries, at?_put?_same put, Option.getD_some, field,
    (@merge_results_fields now nodeId _ (obj fs) listed _).1]
  rfl

/-- Where every required entry has an accepting result, every required entry is accepted once the
results are merged. -/
theorem required_accepted {now nodeId : String} {results : List RequirementResult}
    {entries : List Json} (named : ∀ result ∈ results, resultKey result ≠ "")
    (distinct : (results.map resultKey).Nodup) (keys : (entries.map requirementKey).Nodup)
    (complete : ∀ entry ∈ entries, requirementKey entry ∈ results.map resultKey)
    (resolved : ∀ entry ∈ entries, isRequired entry = true → ∃ result ∈ results,
      resultKey result = requirementKey entry ∧ result.status = .accepted) :
    ∀ entry ∈ (results.map requirementResultJson).foldl (mergeResult now nodeId) entries,
      isRequired entry = true → entryStatus entry = some "accepted" := by
  intro entry' isEntry' required
  obtain ⟨entry, isEntry, reaches⟩ := mem_right (merge_results_reach named distinct keys) isEntry'
  have same : isRequired entry' = isRequired entry := by
    obtain ⟨result, isResult, isKey⟩ := List.mem_map.mp (complete entry isEntry)
    rw [reaches result isResult isKey]
    cases applied : applyResult now nodeId (requirementResultJson result) entry with
    | none => rfl
    | some next => exact applied_required applied
  obtain ⟨result, isResult, isKey, accepted⟩ := resolved entry isEntry (same ▸ required)
  obtain ⟨next, applied, status⟩ := accepted_applies now nodeId accepted entry
  rw [reaches result isResult isKey, applied]
  exact status

theorem InRounds.vouches {now runId projectionRef : String} {node : Json}
    {candidate validated : RunnerObservation} (ok : InRounds log artifact a)
    (awake : hasStatus a "waiting" = false) (evaluates : isEvaluation node = true)
    (v2 : (buildRunnerContext now runId projectionRef artifact node a).isV2 = true)
    (keys : ((ledgerEntries a).map requirementKey).Nodup)
    (accepted : validateRunnerObservation (buildRunnerContext now runId projectionRef artifact node a)
      candidate = .ok validated) :
    Vouches log artifact node a (buildRunnerContext now runId projectionRef artifact node a) candidate
      validated := by
  obtain ⟨evidence, checkpoint, drawn⟩ := ok.checkpoint
  have received := ok.received awake
  have entries := @context_entries now runId projectionRef _ _ _ _ _ evaluates checkpoint
  obtain ⟨some_, inside⟩ := @inside_evidence now runId projectionRef _ _ _ _ _ evaluates checkpoint
    received
  obtain ⟨evidence', latest, stored, isItem, isLatest⟩ := received ok.has
  obtain rfl := Json.arr.inj (Option.some.inj (checkpoint.stored.symm.trans stored))
  obtain ⟨isObj, n, number⟩ := consumed_number (checkpoint.consumed latest isItem)
  have shown := @context_latest now runId projectionRef artifact _ _ evaluates _ isLatest isObj
  have sameKeys : (ledgerEntries a).map entryKey = (ledgerEntries a).map requirementKey :=
    List.map_congr_left fun entry isEntry => (ok.named entry isEntry).1
  obtain ⟨-, decides, sameResults⟩ := validate_spec accepted evaluates
  have sound := validate_sound accepted evaluates v2 (by rw [entries, sameKeys]; exact keys)
  have validatedFor := accepted_validated accepted evaluates
  rw [sameResults] at validatedFor
  generalize isContext : buildRunnerContext now runId projectionRef artifact node a = context
    at some_ inside entries shown sound
  have once : ∀ entry ∈ ledgerEntries a,
      (candidate.evidenceAssessment.requirementResults.map resultKey).count (requirementKey entry) =
        1 := by
    intro entry isEntry
    obtain ⟨trimmed, named⟩ := ok.named entry isEntry
    rw [← trimmed]
    exact sound.once entry (entries ▸ isEntry) (trimmed.symm ▸ named)
  have resolved : candidate.decision = .continue_ → ∀ entry ∈ ledgerEntries a,
      isRequired entry = true → ∃ result ∈ candidate.evidenceAssessment.requirementResults,
        resultKey result = requirementKey entry ∧ result.status = .accepted := by
    intro continues entry isEntry required
    obtain ⟨trimmed, named⟩ := ok.named entry isEntry
    rw [← trimmed]
    exact sound.resolved continues entry (entries ▸ isEntry) (trimmed.symm ▸ named) required
  refine ⟨once, sound.cites, fun result isResult ref isRef => ⟨?_, sound.visible result isResult ref isRef⟩,
    fun result isResult isAccepted => ?_, fun result isResult notApplicable entry isEntry isKey => ?_,
    ⟨latest, n, isLatest, number, sound.fresh n (by rw [shown]; exact number)⟩, resolved, ?_⟩
  · obtain ⟨seqNo, names, found⟩ := sound.inside some_ result isResult ref isRef
    exact names_consumed checkpoint.consumed drawn (inside ref seqNo names found)
  · obtain ⟨entry, isEntry, isKey, option⟩ := sound.shows result isResult isAccepted
    rw [entries] at isEntry
    exact ⟨entry, isEntry, (ok.named entry isEntry).1 ▸ isKey, option⟩
  · refine sound.required result isResult notApplicable entry (entries ▸ isEntry) ?_
    rw [(ok.named entry isEntry).1, isKey]
  · intro continues leaves mergedAt nodeId' agentRunId usage added charged noted seen token' charges merge
      merged entry isEntry required
    have spares := (budgets_spare charges).trans (merge_spares leaves merge)
    have isResults : requirementResults seen =
        candidate.evidenceAssessment.requirementResults.map requirementResultJson := by
      rw [merge_results leaves evaluates merge, ← sameResults]
      rfl
    have complete : ∀ entry ∈ ledgerEntries a, requirementKey entry ∈
        candidate.evidenceAssessment.requirementResults.map resultKey := fun entry isEntry =>
      List.count_pos_iff.mp (by rw [once entry isEntry]; exact Nat.one_pos)
    cases none_ : (requirementResults seen).isEmpty with
    | true =>
      -- without a result there is no requirement, and the token stays
      have stays : token' = noted := by
        unfold mergeEvidenceProgress at merged
        simp only [none_, if_true] at merged
        exact (Option.some.inj merged).symm
      rw [stays, spares.entries] at isEntry
      obtain ⟨result, isResult, -⟩ := List.mem_map.mp (complete entry isEntry)
      rw [isResults, List.isEmpty_iff, List.map_eq_nil_iff] at none_
      rw [none_] at isResult
      cases isResult
    | false =>
      rw [merged_entries (spares.checkpoint checkpoint) none_ merged, isResults] at isEntry
      exact required_accepted validatedFor.named validatedFor.distinct keys complete
        (resolved continues) entry isEntry required

end Evaluations

/-! ### A checkpoint of the small artifact -/

def brewArtifact : Json := obj (Compiler.scaffoldFields Compiler.brewInput "brew" [Compiler.brewStep])

/-- The wait of the scaffold's step. -/
def brewEntered : Option Json :=
  enterWaitCheckpoint "now" "run-1" (Compiler.instructNode Compiler.brewStep true) (obj [])
    brewArtifact 1 (buildInitialToken (obj []) brewArtifact)

def brewLog : List TerminalEvent := [storedEvent 2 .input]

def brewIntake : Round := .sync "now" brewLog

def brewEvaluation : Round :=
  .evaluate "now" "run-1" "ref" (Compiler.evaluateNode Compiler.brewStep "final_verify")
    (brewVerdict .continue_)

/-- Taking the one input in. -/
theorem brew_evidence {entered a : Json} (did : roundStep brewArtifact entered brewIntake = some a) :
    Run (roundStep brewArtifact) (Reads brewLog) entered a := by
  have reads : Reads brewLog entered brewIntake := ⟨List.Subset.refl brewLog, trivial⟩
  exact .tail (.refl _) reads did

/-- The evaluation that lets the small artifact go on. -/
def brewContext (token : Json) : RunnerContext :=
  buildRunnerContext "now" "run-1" "ref" brewArtifact
    (Compiler.evaluateNode Compiler.brewStep "final_verify") token

def brewObservation : RunnerObservation :=
  match brewVerdict .continue_ with
  | .observed _ _ observation _ => observation
  | .timedOut | .failed _ => { nodeId := "", decision := .continue_ }

/-- The evaluation of the step with further merges. -/
def mergingNode (operations : List Json) : Json :=
  Compiler.withField "merge" (arr (Compiler.keepsObservation "evaluate_brew" :: operations))
    (Compiler.evaluateNode Compiler.brewStep "final_verify")

def mergingCandidate (operations : List Json) : Json :=
  Compiler.brewCandidate [Compiler.startNode "brew", Compiler.instructNode Compiler.brewStep true,
    mergingNode operations, Compiler.finalVerifyNode, Compiler.terminalNode] []

/-- The artifact of the candidate, the token its evaluation is asked over, what was accepted of its answer,
and the token after it. -/
def mergingRounds (operations : List Json) : Option (Json × Json × RunnerObservation × Json) :=
  (Compiler.accepted (mergingCandidate operations)).bind fun artifact =>
    (enterWaitCheckpoint "now" "run-1" (Compiler.instructNode Compiler.brewStep true) (obj []) artifact 1
      (buildInitialToken (obj []) artifact)).bind fun entered =>
        (roundStep artifact entered brewIntake).bind fun a =>
          (validateRunnerObservation (buildRunnerContext "now" "run-1" "ref" artifact
            (mergingNode operations) a) brewObservation).toOption.bind fun validated =>
              (roundStep artifact a (.evaluate "now" "run-1" "ref" (mergingNode operations)
                (brewVerdict .continue_))).map fun b => (artifact, a, validated, b)

/-- An evaluation with these merges was accepted over a ledger with distinct keys, lets the run go on, and
leaves what it should not. -/
def LeavesLedgerSo (operations : List Json) (left : Json → Json → Bool) : Prop :=
  ∃ artifact a validated b, mergingRounds operations = some (artifact, a, validated, b) ∧
    validated.decision = .continue_ ∧ (buildRunnerContext "now" "run-1" "ref" artifact
      (mergingNode operations) a).isV2 = true ∧ ((ledgerEntries a).map requirementKey).Nodup ∧
    left a b = true

theorem LeavesLedgerSo.mono {operations : List Json} {left right : Json → Json → Bool}
    (leaves : LeavesLedgerSo operations left) (more : ∀ a b, left a b = true → right a b = true) :
    LeavesLedgerSo operations right := by
  obtain ⟨artifact, a, validated, b, did, continues, v2, keys, is⟩ := leaves
  exact ⟨artifact, a, validated, b, did, continues, v2, keys, more a b is⟩

theorem leaves_ledger_so {operations : List Json} {left : Json → Json → Bool}
    (checked : (mergingRounds operations).any (fun found =>
      decide (found.2.2.1.decision = .continue_) && (buildRunnerContext "now" "run-1" "ref" found.1
        (mergingNode operations) found.2.1).isV2 &&
      decide ((ledgerEntries found.2.1).map requirementKey).Nodup && left found.2.1 found.2.2.2) = true) :
    LeavesLedgerSo operations left := by
  obtain ⟨⟨artifact, a, validated, b⟩, did, holds⟩ := (Option.any_eq_true ..).mp checked
  simp only [Bool.and_eq_true, decide_eq_true_eq] at holds
  obtain ⟨⟨⟨continues, v2⟩, keys⟩, is⟩ := holds
  exact ⟨artifact, a, validated, b, did, continues, v2, keys, is⟩

/-- A requirement nobody was asked for, in the place of those of the step. -/
def otherRequirements : Json :=
  arr [obj [("requirement_key", str "other"), ("required", .bool true), ("status", str "missing")]]

/-- The same, written along the path of the ledger and through an object taken from the token. -/
def replacesLedger : List Json :=
  [obj [("op", str "set"), ("path", str "control.evidence_progress.requirements"),
    ("value", otherRequirements)]]

def replacesHeld : List Json :=
  [Compiler.setFrom "facts.held" "token.control.evidence_progress",
    obj [("op", str "set"), ("path", str "facts.held.requirements"), ("value", otherRequirements)]]

/-- Other results than those that were accepted, written into the observation. -/
def replacesResults (results : List Json) : List Json :=
  [Compiler.setFrom "facts.held" "observation.evidence_assessment",
    obj [("op", str "set"), ("path", str "facts.held.requirement_results"), ("value", arr results)]]

/-- A required requirement is not accepted. -/
def leftOpen (_ b : Json) : Bool :=
  (ledgerEntries b).any fun entry => isRequired entry && entryStatus entry != some "accepted"

/-- The keys of the ledger are others. -/
def otherKeys (a b : Json) : Bool :=
  decide ((ledgerEntries b).map requirementKey ≠ (ledgerEntries a).map requirementKey)

/-- Another list in the place of the ledger does both. -/
theorem ledger_replaced : LeavesLedgerSo replacesLedger (fun a b => leftOpen a b && otherKeys a b) ∧
    LeavesLedgerSo replacesHeld (fun a b => leftOpen a b && otherKeys a b) :=
  ⟨leaves_ledger_so (by decide +kernel), leaves_ledger_so (by decide +kernel)⟩

/-- A result that cites an event the run does not have. -/
def forgedResult : Json :=
  obj [("requirement_key", str "site_state"), ("status", str "accepted"),
    ("event_refs", arr [str "terminal_event:99"])]

/-- A requirement is accepted on that event. -/
def citesForged (_ b : Json) : Bool :=
  (ledgerEntries b).any fun entry => entryStatus entry == some "accepted" &&
    (entry.field "accepted_event_refs").items.any fun ref => ref.str? == some "terminal_event:99"

end Psop.Runtime
