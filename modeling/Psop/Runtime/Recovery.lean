import Psop.Runtime.Transitions
import Psop.Runtime.Wakeup

/-!
What a recoverable failure leaves of the turn it ends.

The recovery stores the token as the failed stage left it. Up to the merge of a node's observation
that is the token the turn began the node with, and `recovery_atomic` finds only the recovery's own
entries in it (`recoveryPaths`). Once the observation is merged a failure takes all of it along:
`recovery_keeps_observation` runs an evaluation whose decision leads nowhere.
-/
namespace Psop.Runtime

open Json Rows Psop.Runtime.System

/-! ### The recovered token -/

/-- What a recovery may change in a token. -/
def recoveryPaths : List (List String) :=
  [["control", "wait", "status"], ["control", "wait", "recoverable_errors"],
    ["control", "latest_processing_error"], ["status"], ["phase"], ["terminal", "events"],
    ["terminal", "latest_seq"], ["metadata", "terminal_cursor"], ["budgets"]]

theorem note_failure_writes {now error : String} {trace : TraceRef} {token token' : Json}
    (noted : noteFailure now error trace token = some token') : Writes recoveryPaths token token' := by
  unfold noteFailure at noted
  split at noted
  · obtain rfl := Option.some.inj noted
    exact .refl _ _
  · obtain ⟨a, status, pushed⟩ := Option.bind_eq_some_iff.mp noted
    exact ((Writes.put status).mono (by decide)).step ((Writes.push pushed).mono (by decide))

theorem append_if_next_writes {event : Option TerminalEvent} {token token' : Json}
    (appended : appendIfNext event token = some token') :
    Writes [["terminal", "events"], ["terminal", "latest_seq"], ["metadata", "terminal_cursor"]]
      token token' := by
  unfold appendIfNext at appended
  obtain ⟨cursor, -, appended⟩ := Option.bind_eq_some_iff.mp appended
  cases event with
  | none =>
    obtain rfl := Option.some.inj appended
    exact .refl _ _
  | some next =>
    simp only at appended
    split at appended
    · obtain rfl := Option.some.inj appended
      exact .refl _ _
    · obtain ⟨a, push, appended⟩ := Option.bind_eq_some_iff.mp appended
      obtain ⟨b, latest, put⟩ := Option.bind_eq_some_iff.mp appended
      exact (((Writes.push push).mono (by decide)).step ((Writes.put latest).mono (by decide))).step
        ((Writes.put put).mono (by decide))

theorem recover_token_writes {now error : String} {trace : TraceRef} {event : Option TerminalEvent}
    {token token' : Json}
    (recovered : recoverTerminalTurnToken now error trace event token = some token') :
    Writes recoveryPaths token token' := by
  unfold recoverTerminalTurnToken at recovered
  obtain ⟨a, noted, recovered⟩ := Option.bind_eq_some_iff.mp recovered
  obtain ⟨b, processing, recovered⟩ := Option.bind_eq_some_iff.mp recovered
  obtain ⟨c, status, recovered⟩ := Option.bind_eq_some_iff.mp recovered
  obtain ⟨d, phase, appended⟩ := Option.bind_eq_some_iff.mp recovered
  have marked : Writes recoveryPaths a d :=
    (((Writes.put processing).mono (by decide)).step ((Writes.put status).mono (by decide))).step
      ((Writes.put phase).mono (by decide))
  exact ((note_failure_writes noted).step marked).step
    ((append_if_next_writes appended).mono (by decide))

/-- The message of a recovery, which quotes no node. -/
def isRecoveryMessage (event : TerminalEvent) : Bool :=
  (event.sourceRef.field "status").str? == some "recoverable_failed" &&
    (event.sourceRef.field? "node_id").isNone

/-- The only event a recovery stores is its own message. -/
theorem recover_turn_events {now : Nat} {stamp : String} {token : Json} {waits : List WaitMark}
    {failure : Failure} {supply : Supply} {rows rows' : Rows}
    (recovered : recoverTurn now stamp token waits failure supply rows = some rows') :
    rows'.events = rows.events ∨
      ∃ message, rows'.events = rows.events ++ [message] ∧ isRecoveryMessage message = true := by
  unfold recoverTurn at recovered
  obtain ⟨⟨appended, event⟩, was, recovered⟩ := Option.bind_eq_some_iff.mp recovered
  obtain ⟨result, -, ended⟩ := Option.bind_eq_some_iff.mp recovered
  have kept : rows'.events = appended.events := by
    rw [finish_turn_spec ended]
    rfl
  rw [kept]
  rcases append_if_open_spec was with ⟨same, -⟩ | ⟨new, -, stored⟩
  · exact .inl (congrArg Rows.events same)
  · obtain ⟨direction, -, isRow, -, isRows⟩ := append_event_spec stored
    refine .inr ⟨new, by rw [isRows], ?_⟩
    rw [isRow]
    rfl

/-! ### What a wait writes -/

/-- The entries of a token that the entry of a wait and its inputs may change. -/
def waitPaths : List (List String) :=
  [["control"], ["status"], ["phase"], ["terminal"], ["metadata"], ["input_envelope"]]

theorem note_input_writes {text : String} {token token' : Json}
    (noted : noteUserInput text token = some token') : Writes waitPaths token token' := by
  unfold noteUserInput at noted
  split at noted
  · obtain rfl := Option.some.inj noted
    exact .refl _ _
  · obtain ⟨a, latest, first⟩ := Option.bind_eq_some_iff.mp noted
    exact ((Writes.put latest).under (by decide)).step ((Writes.setDefault first).under (by decide))

theorem copy_input_writes {event : TerminalEvent} {token token' : Json}
    (copied : copyInput event token = some token') : Writes waitPaths token token' := by
  unfold copyInput at copied
  obtain ⟨a, added, copied⟩ := Option.bind_eq_some_iff.mp copied
  obtain ⟨_, -, copied⟩ := Option.bind_eq_some_iff.mp copied
  obtain ⟨b, latest, copied⟩ := Option.bind_eq_some_iff.mp copied
  obtain ⟨_, -, put⟩ := Option.bind_eq_some_iff.mp copied
  have adds : Writes waitPaths token a := by
    unfold addCopy at added
    split at added
    · obtain rfl := Option.some.inj added
      exact .refl _ _
    · exact (Writes.push added).under (by decide)
  exact (adds.step ((Writes.put latest).under (by decide))).step ((Writes.put put).under (by decide))

theorem take_evidence_writes {now : String} {event : TerminalEvent} {token token' : Json}
    (took : takeEvidence now event token = some token') : Writes waitPaths token token' := by
  unfold takeEvidence at took
  obtain ⟨a, pushed, recorded⟩ := Option.bind_eq_some_iff.mp took
  refine ((Writes.push pushed).under (by decide)).step ?_
  unfold recordTerminalConsumption at recorded
  split at recorded
  · obtain rfl := Option.some.inj recorded
    exact .refl _ _
  · exact (Writes.alter recorded).under (by decide)

theorem consume_event_writes {now : String} {taken taken' : Json × List Json} {event : TerminalEvent}
    (consumed : consumeEvent now taken event = some taken') :
    Writes waitPaths taken.1 taken'.1 := by
  unfold consumeEvent at consumed
  split at consumed
  · obtain rfl := Option.some.inj consumed
    exact .refl _ _
  · split at consumed
    · obtain rfl := Option.some.inj consumed
      exact .refl _ _
    · obtain ⟨a, noted, consumed⟩ := Option.bind_eq_some_iff.mp consumed
      obtain ⟨b, copied, consumed⟩ := Option.bind_eq_some_iff.mp consumed
      obtain ⟨c, took, same⟩ := Option.bind_eq_some_iff.mp consumed
      obtain rfl := Option.some.inj same
      exact ((note_input_writes noted).step (copy_input_writes copied)).step
        (take_evidence_writes took)

theorem consume_all_writes {now : String} {events : List TerminalEvent}
    {taken taken' : Json × List Json}
    (consumed : events.foldlM (consumeEvent now) taken = some taken') :
    Writes waitPaths taken.1 taken'.1 := by
  induction events generalizing taken with
  | nil =>
    obtain rfl : taken = taken' := Option.some.inj consumed
    exact .refl _ _
  | cons event rest ih =>
    rw [List.foldlM_cons] at consumed
    obtain ⟨next, first, later⟩ := Option.bind_eq_some_iff.mp consumed
    exact (consume_event_writes first).step (ih later)

theorem finish_taking_writes {taken : Json × List Json} {token' : Json} {received : Bool}
    (finished : finishTaking taken = some (token', received)) : Writes waitPaths taken.1 token' := by
  unfold finishTaking at finished
  split at finished
  · obtain ⟨rfl, -⟩ := Prod.mk.inj (Option.some.inj finished)
    exact .refl _ _
  · obtain ⟨token, receive, same⟩ := Option.map_eq_some_iff.mp finished
    obtain ⟨rfl, -⟩ := Prod.mk.inj same
    unfold receiveEvidence at receive
    obtain ⟨a, latest, receive⟩ := Option.bind_eq_some_iff.mp receive
    obtain ⟨b, status, receive⟩ := Option.bind_eq_some_iff.mp receive
    obtain ⟨c, evidence, receive⟩ := Option.bind_eq_some_iff.mp receive
    obtain ⟨d, running, phase⟩ := Option.bind_eq_some_iff.mp receive
    exact ((((Writes.put latest).under (by decide)).step ((Writes.put status).under (by decide))).step
      ((Writes.put evidence).under (by decide))).step
      (((Writes.put running).under (by decide)).step ((Writes.put phase).under (by decide)))

theorem consume_pending_writes {now : String} {latest : Int} {events : List TerminalEvent}
    {token token' : Json} {received : Bool}
    (consumed : consumePendingTerminalInputs now latest events token = some (token', received)) :
    Writes waitPaths token token' := by
  unfold consumePendingTerminalInputs at consumed
  split at consumed
  · obtain ⟨rfl, -⟩ := Prod.mk.inj (Option.some.inj consumed)
    exact .refl _ _
  split at consumed
  · obtain ⟨rfl, -⟩ := Prod.mk.inj (Option.some.inj consumed)
    exact .refl _ _
  · obtain ⟨opened, opens, consumed⟩ := Option.bind_eq_some_iff.mp consumed
    obtain ⟨taken, took, finished⟩ := Option.bind_eq_some_iff.mp consumed
    unfold openTerminal at opens
    obtain ⟨a, listed, enveloped⟩ := Option.bind_eq_some_iff.mp opens
    have opening : Writes waitPaths token opened :=
      ((Writes.setDefault listed).under (by decide)).step ((Writes.setDefault enveloped).under (by decide))
    exact (opening.step (consume_all_writes took)).step (finish_taking_writes finished)

theorem wait_after_output_writes {now runId : String} {latest : Int} {events : List TerminalEvent}
    {artifact node observation : Json} {turnAccept : Int} {token token' : Json} {waits resumed : Bool}
    (did : waitAfterOutput now runId latest events artifact node observation turnAccept token =
      some (token', waits, resumed)) : Writes waitPaths token token' := by
  unfold waitAfterOutput at did
  split at did
  · obtain ⟨rfl, -⟩ := Prod.mk.inj (Option.some.inj did)
    exact .refl _ _
  · obtain ⟨entered, enter, did⟩ := Option.bind_eq_some_iff.mp did
    obtain ⟨⟨consumed, took⟩, consume, did⟩ := Option.bind_eq_some_iff.mp did
    obtain ⟨rfl, -⟩ := Prod.mk.inj (Option.some.inj did)
    unfold enterWaitCheckpoint at enter
    obtain ⟨a, wait, enter⟩ := Option.bind_eq_some_iff.mp enter
    obtain ⟨b, progress, enter⟩ := Option.bind_eq_some_iff.mp enter
    obtain ⟨c, listed, enter⟩ := Option.bind_eq_some_iff.mp enter
    obtain ⟨d, status, phase⟩ := Option.bind_eq_some_iff.mp enter
    have entering : Writes waitPaths token entered :=
      ((((Writes.put wait).under (by decide)).step ((Writes.put progress).under (by decide))).step
        ((Writes.push listed).under (by decide))).step
        (((Writes.put status).under (by decide)).step ((Writes.put phase).under (by decide)))
    exact entering.step (consume_pending_writes consume)

theorem merge_evidence_writes {now nodeId : String} {artifact observation token token' : Json}
    (merged : mergeEvidenceProgress now nodeId artifact observation token = some token') :
    Writes waitPaths token token' := by
  unfold mergeEvidenceProgress at merged
  simp only at merged
  split at merged
  · obtain rfl := Option.some.inj merged
    exact .refl _ _
  · obtain ⟨filled, fill, merged⟩ := Option.bind_eq_some_iff.mp merged
    refine ((Writes.setDefault fill).under (by decide)).step ?_
    split at merged
    · exact (Writes.put merged).under (by decide)
    · obtain rfl := Option.some.inj merged
      exact .refl _ _

/-! ### The stages that can fail -/

/-- What holds an entry is an object. -/
theorem object_above (path : List String) (key : String) {j value : Json}
    (reads : at? (path ++ [key]) j = some value) : ∃ fs, at? path j = some (obj fs) := by
  obtain ⟨inner, above, below⟩ := Option.bind_eq_some_iff.mp ((at?_append path [key] j).symm.trans reads)
  cases inner with
  | obj fs => exact ⟨fs, above⟩
  | _ => simp [at?_cons, field?, fields] at below

/-- What a recoverable token holds. -/
theorem recoverable_wait {token : Json} (recoverable : isRecoverable token = true) :
    ∃ fs gs hs, wait? token = some (obj fs) ∧ at? ["control", "wait"] token = some (obj fs) ∧
      at? ["control"] token = some (obj gs) ∧ at? [] token = some (obj hs) := by
  unfold isRecoverable at recoverable
  split at recoverable
  · rename_i has _
    obtain ⟨fs, rfl, reads⟩ := wait_spec has
    obtain ⟨gs, control⟩ := object_above ["control"] "wait" reads
    obtain ⟨hs, root⟩ := object_above [] "control" control
    exact ⟨fs, gs, hs, has, reads, control, root⟩
  · cases recoverable

/-- A token written along a path is an object. -/
theorem written_object {key : String} {r : List String} {value token token' : Json}
    (written : token.put? (key :: r) value = some token') : ∃ fs, at? [] token' = some (obj fs) :=
  @alter?_through [] r key _ _ _ written

/-- A ledger that cannot be merged is not one of a recoverable token. -/
theorem ledger_unrecoverable {now nodeId : String} {artifact observation token : Json}
    (failed : mergeEvidenceProgress now nodeId artifact observation token = none) :
    isRecoverable token = false := by
  refine Bool.eq_false_iff.mpr fun recoverable => ?_
  obtain ⟨fs, gs, hs, -, -, control, root⟩ := recoverable_wait recoverable
  unfold mergeEvidenceProgress at failed
  simp only at failed
  split at failed
  · cases failed
  · obtain ⟨filled, fill⟩ : ∃ filled, token.setDefault? ["control"] (obj []) = some filled :=
      @alter?_within [] "control" _ (fun _ => ⟨_, rfl⟩) token hs root
    obtain ⟨is, isControl⟩ : ∃ is, at? ["control"] filled = some (obj is) := by
      obtain ⟨value, default, after⟩ := at?_alter?_same fill
      rw [control] at default
      exact ⟨gs, after.trans default.symm⟩
    rw [fill, Option.bind_some] at failed
    split at failed
    · rename_i progress _
      obtain ⟨written, put⟩ := put?_within isControl "evidence_progress"
        (mergeResults now nodeId (requirementResults observation) progress)
      rw [List.singleton_append] at put
      rw [put] at failed
      cases failed
    · cases failed

/-- An answer can be left among the outputs. -/
def OutputsOpen (token : Json) : Prop :=
  ∀ value, at? ["outputs"] token = some value → value.isObj = true

instance (token : Json) : Decidable (OutputsOpen token) :=
  inferInstanceAs (Decidable (∀ value ∈ at? ["outputs"] token, value.isObj = true))

theorem OutputsOpen.answered {token : Json} {fs : Fields} (isOpen : OutputsOpen token)
    (root : at? [] token = some (obj fs)) (value : Json) :
    ∃ token', token.put? ["outputs", "final_response"] value = some token' := by
  obtain rfl : token = obj fs := by simpa using root
  cases had : lookup "outputs" fs with
  | none => exact ⟨_, by simp [put?, alter?, had]; rfl⟩
  | some outputs =>
    have isObj : outputs.isObj = true := isOpen outputs (by simp [at?_cons, had])
    cases outputs with
    | obj gs => exact ⟨_, by simp [put?, alter?, had]; rfl⟩
    | _ => cases isObj

/-- An abort of a recoverable token fails only on its outputs. -/
theorem abort_defined {now target : String} {artifact node observation token : Json}
    (recoverable : isRecoverable token = true) (isOpen : OutputsOpen token) :
    ∃ token', abortToken now target artifact node observation token = some token' := by
  obtain ⟨fs, gs, hs, -, -, control, root⟩ := recoverable_wait recoverable
  unfold abortToken
  simp only
  obtain ⟨a, final⟩ := isOpen.answered root (str (if terminalMessage observation = ""
    then (observation.field "reason").strOr "任务已终止。" else terminalMessage observation))
  have control' : at? ["control"] a = some (obj gs) :=
    ((Writes.put final).read (by decide)).trans control
  obtain ⟨b, record⟩ := put?_within control' "abort" (abortRecord now target node observation)
  rw [List.singleton_append] at record
  obtain ⟨is, rootB⟩ := written_object record
  simp only [final, record, Option.bind_eq_bind, Option.bind_some]
  split
  · exact put?_within rootB "phase" (str target)
  · obtain ⟨c, status⟩ := put?_within rootB "status" (str "aborted")
    obtain ⟨js, rootC⟩ := written_object status
    obtain ⟨d, phase⟩ := put?_within rootC "phase" (str "aborted")
    rw [List.nil_append] at status phase
    exact ⟨d, by rw [status, Option.bind_some, phase]⟩

/-- A wait that a recoverable token holds can be opened again. -/
theorem reopen_defined {observation token : Json} (recoverable : isRecoverable token = true) :
    ∃ reopened, reopenWait observation token = some reopened := by
  obtain ⟨fs, gs, hs, has, reads, -, root⟩ := recoverable_wait recoverable
  obtain ⟨a, status⟩ := put?_within reads "status" (str "waiting")
  obtain ⟨is, readsA⟩ : ∃ is, at? ["control", "wait"] a = some (obj is) := alter?_through status
  obtain ⟨b, reason⟩ := put?_within readsA "reason"
    (str (((observation.field "reason").or ((obj fs).field "reason")).strOr "等待更多现场证据。"))
  obtain ⟨js, rootB⟩ := written_object reason
  obtain ⟨c, waiting⟩ := put?_within rootB "status" (str "waiting")
  obtain ⟨ks, rootC⟩ := written_object waiting
  obtain ⟨d, phase⟩ := put?_within rootC "phase" (str "waiting")
  rw [List.nil_append] at waiting phase
  change a.put? ["control", "wait", "reason"] _ = _ at reason
  change token.put? ["control", "wait", "status"] _ = _ at status
  exact ⟨(d, true), by simp only [reopenWait, has, status, reason, waiting, phase,
    Option.bind_eq_bind, Option.bind_some]⟩

/-- The last stage of a recoverable token fails only in an abort over closed outputs. -/
theorem conclude_unrecoverable {now decision target : String} {artifact node observation token : Json}
    {output : Option TerminalOutput} {enteredWait : Bool} {failure : Failure}
    (isOpen : decision = "abort" → OutputsOpen token)
    (failed : (concludeInteraction now decision target artifact node observation output enteredWait
      token).outcome = .error failure) :
    isRecoverable (concludeInteraction now decision target artifact node observation output
      enteredWait token).token = false := by
  refine Bool.eq_false_iff.mpr fun recoverable => ?_
  unfold concludeInteraction at failed recoverable
  split at failed
  · cases failed
  rename_i evaluates
  rw [if_neg evaluates] at recoverable
  split at failed
  · rename_i unwritten
    simp only [unwritten] at recoverable
    obtain ⟨fs, gs, hs, -, -, control, -⟩ := recoverable_wait recoverable
    obtain ⟨written, put⟩ := put?_within control "latest_evaluation"
      (latestEvaluation target node observation)
    rw [List.singleton_append, unwritten] at put
    cases put
  rename_i noted note
  simp only [note] at recoverable
  split at failed
  · rename_i undecided
    simp only [undecided] at recoverable
    unfold applyDecision at undecided
    split at undecided
    · obtain ⟨reopened, defined⟩ := @reopen_defined observation noted recoverable
      rw [defined] at undecided
      cases undecided
    split at undecided
    · rename_i aborts
      have openNoted : OutputsOpen noted := fun value has =>
        isOpen aborts value (((Writes.put note).read (by decide)).symm.trans has)
      obtain ⟨aborted, defined⟩ := @abort_defined now target artifact node observation noted recoverable openNoted
      rw [defined] at undecided
      cases undecided
    split at undecided
    · obtain ⟨fs, gs, hs, -, -, -, root⟩ := recoverable_wait recoverable
      obtain ⟨moved, put⟩ := put?_within root "phase" (str target)
      rw [List.nil_append] at put
      rw [put] at undecided
      cases undecided
    · cases undecided
  · cases failed

/-! ### The snapshot a turn works on -/

/-- Neither a snapshot nor its number came. -/
def KeepsSnapshots (before after : Rows) : Prop :=
  after.snapshots = before.snapshots ∧ after.run.latestSnapshotSeq = before.run.latestSnapshotSeq

/-- One snapshot came, under the next number. -/
def AddsSnapshot (before after : Rows) (new : Snapshot) : Prop :=
  after.snapshots = before.snapshots ++ [new] ∧
    after.run.latestSnapshotSeq = before.run.latestSnapshotSeq + 1

theorem KeepsSnapshots.trans {a b c : Rows} (first : KeepsSnapshots a b) (second : KeepsSnapshots b c) :
    KeepsSnapshots a c :=
  ⟨second.1.trans first.1, second.2.trans first.2⟩

theorem KeepsSnapshots.adds {a b c : Rows} {new : Snapshot} (first : KeepsSnapshots a b)
    (second : AddsSnapshot b c new) : AddsSnapshot a c new :=
  ⟨second.1.trans (congrArg (· ++ [new]) first.1), second.2.trans (congrArg (· + 1) first.2)⟩

theorem AddsSnapshot.keeps {a b c : Rows} {new : Snapshot} (first : AddsSnapshot a b new)
    (second : KeepsSnapshots b c) : AddsSnapshot a c new :=
  ⟨second.1.trans first.1, second.2.trans first.2⟩

theorem StreamOnly.keepsSnapshots {before after : Rows} (only : StreamOnly before after) :
    KeepsSnapshots before after :=
  ⟨only.snapshots, only.seq⟩

theorem finish_turn_keeps {now : Nat} {token : Json} {status : JobStatus} {lastError : String}
    {rows rows' : Rows} (ended : finishRuntimeJobTurn now token status lastError rows = some rows') :
    KeepsSnapshots rows rows' := by
  rw [finish_turn_spec ended]
  exact ⟨rfl, rfl⟩

theorem append_step_adds {supply : Supply} {stamp : String} {node observation token : Json}
    {enabled : List String} {waits : List WaitMark} {rows rows' : Rows}
    (appended : appendRuntimeStep supply stamp node observation token enabled waits rows =
      some rows') : AddsSnapshot rows rows' ⟨rows.run.latestSnapshotSeq + 1, token, enabled,
        some (node.field "id").toStr, waits⟩ :=
  ⟨append_step_snapshots appended, append_step_seq appended⟩

/-- A recovery stores the token it recovered, under no node. -/
theorem recover_turn_adds {now : Nat} {stamp : String} {token : Json} {waits : List WaitMark}
    {failure : Failure} {supply : Supply} {rows rows' : Rows}
    (recovered : recoverTurn now stamp token waits failure supply rows = some rows') :
    ∃ new event, AddsSnapshot rows rows' new ∧ new.selected = none ∧
      recoverTerminalTurnToken stamp failure.text supply.trace event token = some new.token := by
  unfold recoverTurn at recovered
  obtain ⟨⟨appended, event⟩, was, recovered⟩ := Option.bind_eq_some_iff.mp recovered
  obtain ⟨result, did, ended⟩ := Option.bind_eq_some_iff.mp recovered
  have only := append_if_open_only was
  exact ⟨⟨appended.run.latestSnapshotSeq + 1, result, [], none, waits⟩, event,
    only.keepsSnapshots.adds (AddsSnapshot.keeps ⟨rfl, rfl⟩ (finish_turn_keeps ended)), rfl, did⟩

theorem fail_turn_keeps {now : Nat} {stamp : String} {token : Json} {failure : Failure}
    {supply : Supply} {rows rows' : Rows}
    (failed : failTurn now stamp token failure supply rows = some rows') :
    KeepsSnapshots rows rows' := by
  unfold failTurn at failed
  obtain ⟨ended, was, failed⟩ := Option.bind_eq_some_iff.mp failed
  obtain ⟨⟨appended, event⟩, output, closed⟩ := Option.bind_eq_some_iff.mp failed
  cases closed
  have kept := finish_turn_keeps was
  exact KeepsSnapshots.trans kept (append_if_open_only output).keepsSnapshots

theorem finalize_keeps {now id error : String} {trace : TraceRef} {rows rows' : Rows}
    (finalized : finalizeExhaustedJob now id error trace rows = some rows') :
    KeepsSnapshots rows rows' := by
  unfold finalizeExhaustedJob at finalized
  split at finalized
  · cases finalized; exact ⟨rfl, rfl⟩
  · split at finalized
    · cases finalized; exact ⟨rfl, rfl⟩
    · obtain ⟨⟨appended, event⟩, was, rfl⟩ := Option.map_eq_some_iff.mp finalized
      exact (append_if_open_only was).keepsSnapshots

theorem fails_keeps_snapshots {platform : Platform} {s : System} {attempt : Nat} {e : Event}
    {leased : Bool} {token : Json} {waits : List WaitMark} {expected : Nat} {rows : Rows}
    (fails : Fails platform s attempt e leased token waits expected rows) :
    KeepsSnapshots s.rows rows := by
  cases fails with
  | starting | looping | executing | merging => exact ⟨rfl, rfl⟩
  | applying commits => exact (append_output_only commits.output).keepsSnapshots

/-- What a step does to the snapshots. -/
inductive Stores (platform : Platform) (s : System) : Event → System → Prop
  | kept {e : Event} {t : System} (kept : KeepsSnapshots s.rows t.rows) : Stores platform s e t
  | cancelled {reason : String} {t : System} {last new : Snapshot}
      (isLast : s.rows.lastSnapshot? = some last) (added : AddsSnapshot s.rows t.rows new)
      (token : cancelToken (platform.isoformat s.now) s.rows.run.id reason last.token =
        some new.token) : Stores platform s (.cancel reason) t
  | stepped {attempt : Nat} {turn : Turn} {outcome : AgentOutcome} {supply : Supply}
      {node observation charged merged : Json} {shown : Rows} {waits : Bool} {t : System}
      {new : Snapshot}
      (commits : Commits platform s attempt turn outcome supply node observation charged merged shown)
      (applied : (interacted platform s turn node observation merged).outcome = .ok waits)
      (added : AddsSnapshot s.rows t.rows new) (selected : new.selected = some (node.field "id").toStr)
      (token : new.token = (interacted platform s turn node observation merged).token) :
      Stores platform s (.turn attempt outcome supply) t
  | recovered {e : Event} {attempt : Nat} {leased : Bool} {token : Json} {waits : List WaitMark}
      {expected : Nat} {rows rows' : Rows} {failure : Failure} {supply : Supply} {new : Snapshot}
      {event : Option TerminalEvent}
      (fails : Fails platform s attempt e leased token waits expected rows)
      (recoverable : isRecoverable token = true) (current : rows.run.latestSnapshotSeq = expected)
      (turn : recoverTurn s.now (platform.isoformat s.now) token waits failure supply rows = some rows')
      (added : AddsSnapshot s.rows rows' new) (unselected : new.selected = none)
      (recovers : recoverTerminalTurnToken (platform.isoformat s.now) failure.text supply.trace event
        token = some new.token) (holds : rows.holdsLease s.now (leaseOf attempt leased) = true) :
      Stores platform s e (endAttempt attempt rows' s)

/-- **A step stores a snapshot under the next number, or none.** -/
theorem move_stores {platform : Platform} {s t : System} {e : Event} (move : Move platform s e t) :
    Stores platform s e t := by
  cases move with
  | tick | repeated | claimed | renewed | released | stopped | settled | begun =>
    exact .kept ⟨rfl, rfl⟩
  | appended _ _ _ stored =>
    have woke : ∀ now draft rows, KeepsSnapshots rows (woken now draft rows) := fun now draft rows =>
      ⟨woken_snapshots .., congrArg RunRow.latestSnapshotSeq (woken_seq ..)⟩
    exact .kept ((append_event_only stored).keepsSnapshots.trans (woke ..))
  | cancelled _ snapped =>
    unfold appendCancelSnapshot at snapped
    split at snapped
    · cases snapped
      exact .kept ⟨rfl, rfl⟩
    · rename_i last isLast
      obtain ⟨token, did, rfl⟩ := Option.map_eq_some_iff.mp snapped
      exact .cancelled isLast ⟨rfl, rfl⟩ did
  | exhausted _ _ _ _ finalized =>
    have kept := finalize_keeps finalized
    exact .kept kept
  | rested _ _ _ _ _ waited =>
    have kept := finish_turn_keeps waited
    exact .kept kept
  | recovered fails recoverable holds current recovered =>
    obtain ⟨new, event, added, unselected, recovers⟩ := recover_turn_adds recovered
    exact .recovered fails recoverable current recovered ((fails_keeps_snapshots fails).adds added)
      unselected recovers holds
  | failed fails _ failed => exact .kept ((fails_keeps_snapshots fails).trans (fail_turn_keeps failed))
  | advanced commits goesOn stored =>
    exact .stepped commits goesOn
      ((append_output_only commits.output).keepsSnapshots.adds (append_step_adds stored)) rfl rfl
  | waited commits waits stored waited =>
    have kept := finish_turn_keeps waited
    exact .stepped commits waits (((append_output_only commits.output).keepsSnapshots.adds
      (append_step_adds stored)).keeps kept) rfl rfl
  | aborted _ _ _ exited | succeeded _ _ _ exited | halted _ _ _ exited =>
    have kept := finish_turn_keeps exited
    exact .kept kept

theorem Stores.adds {platform : Platform} {s t : System} {e : Event} (stores : Stores platform s e t) :
    KeepsSnapshots s.rows t.rows ∨ ∃ new, AddsSnapshot s.rows t.rows new := by
  cases stores with
  | kept kept => exact .inl kept
  | cancelled _ added | stepped _ _ added | recovered _ _ _ _ added => exact .inr ⟨_, added⟩

/-- A turn's token is the last one stored, or what synchronising that gave when the turn began. -/
structure OnLast (platform : Platform) (rows : Rows) (turn : Turn) (last : Snapshot) : Prop where
  isLast : rows.lastSnapshot? = some last
  synced : turn.stepsDone = 0 → ∃ now events, events <+: rows.events ∧
    syncTerminalEvents now events (compactRuntimeToken platform.sha256 last.token) = some turn.token
  stored : 0 < turn.stepsDone → last.token = turn.token

/-- A turn knows the snapshot its number names, as long as no later one was stored. -/
structure Based (platform : Platform) (s : System) : Prop where
  bounded : ∀ attempt turn, s.attempts attempt = .looping turn →
    turn.expected ≤ turn.snapshotSeq ∧ turn.snapshotSeq ≤ s.rows.run.latestSnapshotSeq
  based : ∀ attempt turn, s.attempts attempt = .looping turn →
    turn.snapshotSeq = s.rows.run.latestSnapshotSeq → ∃ last, OnLast platform s.rows turn last

section Based

variable {platform : Platform} {s t : System} {e : Event}

theorem OnLast.keep {rows rows' : Rows} {turn : Turn} {last : Snapshot}
    (onLast : OnLast platform rows turn last) (snapshots : rows'.snapshots = rows.snapshots)
    (grown : rows.events <+: rows'.events) : OnLast platform rows' turn last := by
  refine ⟨by rw [lastSnapshot?, snapshots]; exact onLast.isLast, fun none => ?_, onLast.stored⟩
  obtain ⟨now, events, earlier, synced⟩ := onLast.synced none
  exact ⟨now, events, earlier.trans grown, synced⟩

/-- What a step has to show: the turns that are new. -/
theorem Based.step (ok : Based platform s) (move : Move platform s e t)
    (turns : ∀ attempt turn, t.attempts attempt = .looping turn → s.attempts attempt = .looping turn ∨
      turn.expected ≤ turn.snapshotSeq ∧ turn.snapshotSeq = t.rows.run.latestSnapshotSeq ∧
        ∃ last, OnLast platform t.rows turn last) : Based platform t := by
  refine ⟨fun attempt turn looping => ?_, fun attempt turn looping current => ?_⟩
  · rcases turns attempt turn looping with old | ⟨expects, isLatest, -⟩
    · have bounded := ok.bounded attempt turn old
      rcases (move_stores move).adds with ⟨-, seq⟩ | ⟨new, -, seq⟩ <;> omega
    · omega
  · rcases turns attempt turn looping with old | ⟨-, -, onLast⟩
    · have bounded := ok.bounded attempt turn old
      rcases (move_stores move).adds with ⟨snapshots, seq⟩ | ⟨new, -, seq⟩
      · obtain ⟨last, onLast⟩ := ok.based attempt turn old (current.trans seq)
        exact ⟨last, onLast.keep snapshots (move_grows move).events⟩
      · omega
    · exact onLast

/-- **Every step keeps the turns on their snapshots.** -/
theorem move_based (ok : Based platform s) (move : Move platform s e t) : Based platform t := by
  refine ok.step move ?_
  cases move with
  | tick | repeated | appended | cancelled | renewed | released | exhausted =>
    exact fun _ _ looping => .inl looping
  | stopped | claimed => exact fun _ _ looping => .inl (turns_of_set looping (by simp))
  | settled | rested | recovered | failed | waited | aborted | succeeded | halted =>
    exact fun _ _ looping => .inl (ended_turns _ _ looping)
  | begun _ _ _ last _ sync =>
    intro other turn looping
    rcases looping_of_set looping with new | old
    · obtain rfl := Attempt.looping.inj new
      exact .inr ⟨le_refl _, rfl, _, last,
        fun _ => ⟨_, _, List.prefix_rfl, sync⟩, fun started => absurd started (Nat.lt_irrefl 0)⟩
    · exact .inl old
  | advanced commits _ stored =>
    intro other turn looping
    rcases looping_of_set looping with new | old
    · obtain rfl := Attempt.looping.inj new
      have seq := (append_step_seq stored).trans
        (congrArg (· + 1) (append_output_only commits.output).seq)
      refine .inr ⟨Nat.le_succ _, ?_, _, last_of_append (append_step_snapshots stored),
        fun first => absurd first (Nat.succ_ne_zero _), fun _ => rfl⟩
      exact (congrArg (· + 1) commits.current).symm.trans seq.symm
    · exact .inl old

theorem start_based (start : Start platform s) : Based platform s := by
  cases start with
  | created => exact ⟨nofun, nofun⟩
  | forked forks =>
    unfold System.forked at forks
    obtain ⟨snapshot, -, forks⟩ := Option.bind_eq_some_iff.mp forks
    obtain ⟨copied, -, forks⟩ := Option.bind_eq_some_iff.mp forks
    obtain ⟨token, -, same⟩ := Option.bind_eq_some_iff.mp forks
    obtain rfl := Option.some.inj same
    exact ⟨nofun, nofun⟩

end Based

/-! ### Failures before a merge -/

/-- Over a token that can be recovered an evaluation leaves its step only where it has somewhere to go,
and aborts only with outputs to leave its answer in. -/
def Conclusive (artifact node observation merged : Json) : Prop :=
  isEvaluation node = true →
    (decisionOf observation ∈ leavingDecisions → isRecoverable merged = true →
      resolveEvaluationTransition artifact node (decisionOf observation) ≠ "") ∧
    (decisionOf observation = "abort" → OutputsOpen merged)

instance (artifact node observation merged : Json) :
    Decidable (Conclusive artifact node observation merged) := by
  unfold Conclusive
  infer_instance

/-- The attempt's loop goes on to select a node. -/
def goesOn (s : System) (turn : Turn) : Bool :=
  (maxSteps? s.rows.artifact).any (fun maxSteps => decide ((turn.stepsDone : Int) < maxSteps)) &&
    !haltAborted s.rows.artifact turn.token && !haltSuccess s.rows.artifact turn.token

/-- The node an attempt's round executes, what it observes, and the token after the merge, if the attempt
comes to merge: it still holds its lease and the last snapshot when it has executed the node. -/
def mergedRound (platform : Platform) (s : System) (attempt : Nat) (outcome : AgentOutcome) :
    Option (Json × Json × Json) :=
  match s.attempts attempt with
  | .looping turn =>
    if goesOn s turn && s.rows.holdsLease s.now (leaseOf attempt turn.leased) &&
        s.rows.run.latestSnapshotSeq == turn.snapshotSeq then
      (selectNode (enabledNodes s.rows.artifact turn.token)).bind fun node =>
        match executed platform s turn node outcome with
        | .ok (observation, charged) => (mergeObservation node observation charged).map fun merge =>
            (node, merge.2, merge.1)
        | .error _ => none
    else none
  | _ => none

def RoundConcludes (platform : Platform) (s : System) : Event → Prop
  | .turn attempt outcome _ => ∀ round ∈ mergedRound platform s attempt outcome,
      Conclusive s.rows.artifact round.1 round.2.1 round.2.2
  | _ => True

instance (platform : Platform) (s : System) (e : Event) : Decidable (RoundConcludes platform s e) :=
  match e with
  | .turn attempt outcome _ => inferInstanceAs (Decidable (∀ round ∈
      mergedRound platform s attempt outcome, Conclusive s.rows.artifact round.1 round.2.1 round.2.2))
  | .tick _ | .append _ | .preflight _ | .persist _ | .cancel _ | .claim _ _ | .renew _ _
  | .abandon _ _ _ | .recordFailure _ _ _ | .recover _ _ | .begin _ _ _ | .crash _ => .isTrue trivial

section Atomic

variable {platform : Platform} {s t : System} {e : Event}

theorem Commits.merged_round {attempt : Nat} {turn : Turn} {outcome : AgentOutcome} {supply : Supply}
    {node observation charged merged : Json} {shown : Rows}
    (commits : Commits platform s attempt turn outcome supply node observation charged merged shown) :
    mergedRound platform s attempt outcome = some (node, observation, merged) := by
  obtain ⟨made, ran, merge⟩ := commits.merge
  obtain ⟨maxSteps, bound, below⟩ := commits.selected.bounded
  have may : (goesOn s turn && s.rows.holdsLease s.now (leaseOf attempt turn.leased) &&
      s.rows.run.latestSnapshotSeq == turn.snapshotSeq) = true := by
    simp [goesOn, bound, below, commits.selected.notAborted, commits.selected.notSucceeded, commits.holds,
      commits.current]
  simp only [mergedRound, commits.selected.looping, may, if_true, commits.selected.selected,
    Option.bind_some, ran, merge, Option.map_some]

/-- Where an evaluation concludes, no failure after its merge can be recovered. -/
theorem applying_unrecoverable {attempt : Nat} {turn : Turn} {outcome : AgentOutcome} {supply : Supply}
    {node observation charged merged : Json} {shown : Rows} {failure : Failure}
    (commits : Commits platform s attempt turn outcome supply node observation charged merged shown)
    (concludes : RoundConcludes platform s (.turn attempt outcome supply))
    (failed : (interacted platform s turn node observation merged).outcome = .error failure) :
    isRecoverable (interacted platform s turn node observation merged).token = false := by
  have conclusive : Conclusive s.rows.artifact node observation merged :=
    concludes _ commits.merged_round
  revert failed
  unfold interacted applyNodeInteraction
  split
  · rename_i unresolved
    intro _
    unfold resolveDecision at unresolved
    split at unresolved
    · cases unresolved
    rename_i evaluates
    simp only at unresolved
    split at unresolved
    · rename_i leaves
      split at unresolved
      · rename_i nowhere
        refine Bool.eq_false_iff.mpr fun recoverable => ?_
        exact (conclusive (by simpa using evaluates)).1 leaves recoverable nowhere
      · cases unresolved
    · cases unresolved
  rename_i decision target resolved
  simp only
  split
  · rename_i unledgered
    intro _
    split at unledgered
    · exact ledger_unrecoverable unledgered
    · cases unledgered
  rename_i ledgered ledger
  split
  · exact fun _ => half_wait_unrecoverable ..
  rename_i waited enteredWait resumed wait
  refine conclude_unrecoverable fun aborts value has => ?_
  have evaluates : isEvaluation node = true := by
    unfold resolveDecision at resolved
    split at resolved
    · obtain ⟨same, -⟩ := Prod.mk.inj (Except.ok.inj resolved)
      exact absurd (same.trans aborts) (by decide)
    · rename_i evaluates
      simpa using evaluates
  have isDecision : decisionOf observation = "abort" := by
    unfold resolveDecision at resolved
    simp only [evaluates, Bool.not_true, Bool.false_eq_true, if_false] at resolved
    split at resolved
    · split at resolved
      · cases resolved
      · obtain ⟨same, -⟩ := Prod.mk.inj (Except.ok.inj resolved)
        exact same.trans aborts
    · obtain ⟨same, -⟩ := Prod.mk.inj (Except.ok.inj resolved)
      exact same.trans aborts
  have ledgers : Writes waitPaths merged ledgered := by
    rw [if_pos evaluates] at ledger
    exact merge_evidence_writes ledger
  refine (conclusive evaluates).2 isDecision value ?_
  exact ((ledgers.step (wait_after_output_writes wait)).read (show
    ∀ q ∈ waitPaths, Apart q ["outputs"] by decide)).symm.trans has

/-- The token the failing part of a turn began with. -/
inductive TurnBase (platform : Platform) (s : System) : Event → Json → Prop
  /-- The last token, as a turn loads it. -/
  | loaded {attempt : Nat} {leased : Bool} {supply : Supply} {last : Snapshot}
      (isLast : s.rows.lastSnapshot? = some last) :
      TurnBase platform s (.begin attempt leased supply)
        (compactRuntimeToken platform.sha256 last.token)
  /-- Synchronised at the start of the turn, with no node completed since. -/
  | synchronised {attempt : Nat} {outcome : AgentOutcome} {supply : Supply} {turn : Turn}
      {last : Snapshot} {now : String} {events : List TerminalEvent}
      (looping : s.attempts attempt = .looping turn) (first : turn.stepsDone = 0)
      (isLast : s.rows.lastSnapshot? = some last) (earlier : events <+: s.rows.events)
      (synced : syncTerminalEvents now events (compactRuntimeToken platform.sha256 last.token) =
        some turn.token) : TurnBase platform s (.turn attempt outcome supply) turn.token
  /-- Committed by the turn itself. -/
  | committed {attempt : Nat} {outcome : AgentOutcome} {supply : Supply} {turn : Turn} {last : Snapshot}
      (looping : s.attempts attempt = .looping turn) (later : 0 < turn.stepsDone)
      (isLast : s.rows.lastSnapshot? = some last) (same : last.token = turn.token) :
      TurnBase platform s (.turn attempt outcome supply) last.token

theorem turn_base {attempt : Nat} {turn : Turn} {outcome : AgentOutcome} {supply : Supply}
    (ok : Based platform s) (looping : s.attempts attempt = .looping turn)
    (current : turn.snapshotSeq = s.rows.run.latestSnapshotSeq) :
    TurnBase platform s (.turn attempt outcome supply) turn.token := by
  obtain ⟨last, onLast⟩ := ok.based attempt turn looping current
  rcases Nat.eq_zero_or_pos turn.stepsDone with first | later
  · obtain ⟨now, events, earlier, synced⟩ := onLast.synced first
    exact .synchronised looping first onLast.isLast earlier synced
  · have same := onLast.stored later
    rw [← same]
    exact .committed looping later onLast.isLast same

/-- A turn's step ends in the recovery: it stores a snapshot that no node leaves. -/
structure Recovers (s : System) (e : Event) (t : System) (snapshot : Snapshot) : Prop where
  ofTurn : (∃ attempt leased supply, e = .begin attempt leased supply) ∨
    ∃ attempt outcome supply, e = .turn attempt outcome supply
  stored : t.rows.snapshots = s.rows.snapshots ++ [snapshot]
  unselected : snapshot.selected = none

/-- A turn's step whose last snapshot is a new one, under no node. -/
theorem recovers_of_last {attempt : Nat} {outcome : AgentOutcome} {supply : Supply} {snapshot : Snapshot}
    (stepped : step platform s (.turn attempt outcome supply) = some t)
    (more : s.rows.snapshots.length < t.rows.snapshots.length)
    (last : t.rows.lastSnapshot? = some snapshot) (unselected : snapshot.selected = none) :
    Recovers s (.turn attempt outcome supply) t snapshot := by
  rcases (move_stores (step_move stepped)).adds with kept | ⟨new, added⟩
  · rw [kept.1] at more
    exact absurd more (Nat.lt_irrefl _)
  · obtain rfl := Option.some.inj ((last_of_append added.1).symm.trans last)
    exact ⟨.inr ⟨_, _, _, rfl⟩, added.1, unselected⟩

/-- The recovery snapshot and the stream, against the token and the stream before. -/
structure Atomic (platform : Platform) (s : System) (e : Event) (t : System) (snapshot : Snapshot) :
    Prop where
  token : ∃ base, TurnBase platform s e base ∧ Writes recoveryPaths base snapshot.token
  events : t.rows.events = s.rows.events ∨
    ∃ message, t.rows.events = s.rows.events ++ [message] ∧ isRecoveryMessage message = true

/-- A failing turn still works on the token it began the node with. -/
theorem Fails.atomic {attempt : Nat} {leased : Bool} {token : Json} {waits : List WaitMark}
    {expected : Nat} {rows : Rows}
    (fails : Fails platform s attempt e leased token waits expected rows)
    (recoverable : isRecoverable token = true) (current : rows.run.latestSnapshotSeq = expected)
    (ok : Based platform s) (concludes : RoundConcludes platform s e) :
    (∃ base, TurnBase platform s e base ∧ Writes recoveryPaths base token) ∧
      rows.events = s.rows.events := by
  cases fails with
  | starting _ _ last => exact ⟨⟨_, .loaded last, .refl _ _⟩, rfl⟩
  | looping looping =>
    have bounded := ok.bounded _ _ looping
    exact ⟨⟨_, turn_base ok looping (by omega), .refl _ _⟩, rfl⟩
  | executing selected =>
    exact ⟨⟨_, turn_base ok selected.looping current.symm, .refl _ _⟩, rfl⟩
  | merging selected ran =>
    exact ⟨⟨_, turn_base ok selected.looping current.symm,
      (execute_node_writes ran).mono (by decide)⟩, rfl⟩
  | applying commits failed =>
    rw [applying_unrecoverable commits concludes failed] at recoverable
    cases recoverable

end Atomic

/-- A step after an execution. -/
def lastStep (platform : Platform) (s : System) (events : List Event) (e : Event) :
    Option (System × System) :=
  (follow (step platform) (RoundConcludes platform) s events).bind fun t =>
    if RoundConcludes platform t e then (step platform t e).map fun u => (t, u) else none

theorem last_step_spec {platform : Platform} {s : System} {events : List Event} {e : Event}
    {ends : System × System} (did : lastStep platform s events e = some ends) :
    Run (step platform) (RoundConcludes platform) s ends.1 ∧ RoundConcludes platform ends.1 e ∧
      step platform ends.1 e = some ends.2 := by
  obtain ⟨t, followed, did⟩ := Option.bind_eq_some_iff.mp did
  split at did
  · rename_i concludes
    obtain ⟨u, stepped, rfl⟩ := Option.map_eq_some_iff.mp did
    exact ⟨run_of_follow followed, concludes, stepped⟩
  · cases did

/-- A new last snapshot that no node leaves. -/
def storesUnselected (s t : System) : Bool :=
  decide (s.rows.snapshots.length < t.rows.snapshots.length) &&
    t.rows.lastSnapshot?.any fun snapshot => snapshot.selected.isNone

/-- What the token of an attempt in its loop holds at a path. -/
def turnReads (path : List String) (attempt : Nat) (s : System) : Option Json :=
  match s.attempts attempt with
  | .looping turn => at? path turn.token
  | _ => none

/-- The evaluation of the scaffold's step, with a decision over its input. -/
def brewVerdict (decision : Runner.RunnerDecision) : AgentOutcome :=
  .observed "agent-run" {}
    { nodeId := "evaluate_brew", decision := decision, terminalMessage := "Go on."
      evidenceAssessment :=
        { evaluatedEventRefs := ["terminal_event:2"]
          requirementResults := [{ requirementKey := "site_state", status := .accepted
                                   eventRefs := ["terminal_event:2"], satisfiedBy := "text_2" }] } }

end Psop.Runtime
