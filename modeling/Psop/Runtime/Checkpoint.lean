import Psop.Runtime.Intake
import Psop.Runtime.Ledger
import Psop.Runtime.Recovery

/-!
The checkpoint of a wait and its ledger, over whole runs.

`Checkpoint` says what a token with a wait holds: evidence that is all of inputs consumed at this
checkpoint, and the ledger of the wait's step with accepted references into that evidence. Everything
a turn does keeps it (`Spares`), takes evidence in, enters another wait, or merges an evaluation, whose
results were validated against this very evidence. The rounds of a checkpoint collect this over
everything that happens between entering a wait and leaving it.
-/
namespace Psop.Runtime

open Json Rows Psop.Runtime.System Psop.Runner

/-! ### What a checkpoint is read along -/

def checkpointPaths : List (List String) :=
  [["control", "wait", "evidence"], ["control", "wait", "checkpoint_id"],
    ["control", "wait", "workflow_step_id"], ["control", "evidence_progress"],
    ["control", "wait_checkpoints"]]

/-- The checkpoint of one token is as in another. -/
structure Spares (a b : Json) : Prop where
  reads : ∀ p ∈ checkpointPaths, b.at? p = a.at? p
  latest : b.at? ["control", "latest_evidence"] = a.at? ["control", "latest_evidence"]
  records : (consumption b).map untimed = (consumption a).map untimed
  waiting : (wait? b).isSome = (wait? a).isSome

theorem Spares.refl (token : Json) : Spares token token := ⟨fun _ _ => rfl, rfl, rfl, rfl⟩

theorem Spares.symm {a b : Json} (spares : Spares a b) : Spares b a :=
  ⟨fun p isPath => (spares.reads p isPath).symm, spares.latest.symm, spares.records.symm,
    spares.waiting.symm⟩

theorem Spares.trans {a b c : Json} (first : Spares a b) (second : Spares b c) : Spares a c :=
  ⟨fun p isPath => (second.reads p isPath).trans (first.reads p isPath),
    second.latest.trans first.latest, second.records.trans first.records,
    second.waiting.trans first.waiting⟩

theorem Alike.spares {a b : Json} (alike : Alike a b) : Spares a b := by
  have isRead : ∀ p ∈ checkpointPaths, p ∈ intakePaths := by decide
  exact ⟨fun p isPath => (alike.reads p (isRead p isPath)).symm,
    (alike.reads _ (by decide)).symm, alike.records.symm, alike.waiting.2.trans alike.waiting.1.symm⟩

/-- Writes beside the checkpoint. -/
theorem spares_of_writes {paths : List (List String)} {a b : Json} (writes : Writes paths a b)
    (free : ∀ p ∈ ["control", "wait"] :: ["control", "terminal_consumption"] ::
      ["control", "latest_evidence"] :: checkpointPaths, ∀ q ∈ paths, Apart q p) : Spares a b := by
  refine ⟨fun p isPath => writes p (free p (by simp [isPath])), writes _ (free _ (by simp)), ?_, ?_⟩
  · rw [consumption, consumption, writes _ (free _ (by simp))]
  · rw [wait?, wait?, writes _ (free _ (by simp))]

/-- Writes to other entries of the wait. -/
theorem spares_below_wait {key : String} {rest : List String} {update : Option Json → Option Json}
    {a b : Json} (beside : key ∉ ["evidence", "checkpoint_id", "workflow_step_id"])
    (has : (wait? a).isSome = true)
    (altered : alter? ("control" :: "wait" :: key :: rest) update (some a) = some b) : Spares a b := by
  have writes : Writes [["control", "wait", key] ++ rest] a b := .alter altered
  have free : ∀ p, Apart ["control", "wait", key] p → at? p b = at? p a := fun p apart =>
    writes.above p fun q isQ => List.mem_singleton.mp isQ ▸ apart
  simp only [List.mem_cons, List.not_mem_nil, or_false, not_or] at beside
  refine ⟨fun p isPath => free p ?_, free _ ?_, ?_, (view_below_wait altered).1.trans has.symm⟩
  · simp only [checkpointPaths, List.mem_cons, List.not_mem_nil, or_false] at isPath
    rcases isPath with rfl | rfl | rfl | rfl | rfl <;> simp [Apart, apart, beside]
  · simp [Apart, apart]
  · rw [consumption, consumption, free _ (by simp [Apart, apart])]

/-! ### The checkpoint of a token -/

/-- An entry of the current wait, as text. -/
def waitText (key : String) (token : Json) : String :=
  ((token.at? ["control", "wait", key]).getD null).strOr

/-- The evidence of an input that the current checkpoint consumed. -/
def Consumed (token item : Json) : Prop :=
  ∃ event : TerminalEvent, event.direction = .input ∧ item = event.evidence ∧
    ∃ record ∈ consumption token, recordSeq record = some (event.seqNo : Int) ∧
      record.field "checkpoint_id" = str (waitText "checkpoint_id" token)

/-- The evidence of a wait and the ledger that belongs to it. -/
structure Checkpoint (artifact token : Json) (evidence entries : List Json) : Prop where
  stored : token.at? ["control", "wait", "evidence"] = some (arr evidence)
  consumed : ∀ item ∈ evidence, Consumed token item
  progress : ∃ fs, token.at? ["control", "evidence_progress"] = some (obj fs) ∧
    lookup "requirements" fs = some (arr entries) ∧
    ((obj fs).field "checkpoint_id").strOr = waitText "checkpoint_id" token ∧
    ((obj fs).field "workflow_step_id").strOr = waitText "workflow_step_id" token
  ledger : Ledger evidence (evidenceRequirements artifact (waitText "workflow_step_id" token)) entries

/-- Where a token has a wait it has its checkpoint. -/
def Checkpointed (artifact token : Json) : Prop :=
  (wait? token).isSome = true → ∃ evidence entries, Checkpoint artifact token evidence entries

/-- The latest evidence is evidence of the wait. -/
def Received (token : Json) : Prop :=
  (wait? token).isSome = true → ∃ evidence latest,
    token.at? ["control", "wait", "evidence"] = some (arr evidence) ∧ latest ∈ evidence ∧
    token.at? ["control", "latest_evidence"] = some latest

theorem untimed_field {key : String} (beside : "consumed_at" ≠ key) (record : Json) :
    (untimed record).field key = record.field key := by
  cases record with
  | obj fs =>
    simp only [untimed, field, field?_obj]
    rw [lookup_popKey_other beside]
  | _ => rfl

theorem Consumed.carry {a b item : Json} (consumed : Consumed a item)
    (records : (consumption a).map untimed ⊆ (consumption b).map untimed)
    (same : b.at? ["control", "wait", "checkpoint_id"] = a.at? ["control", "wait", "checkpoint_id"]) :
    Consumed b item := by
  obtain ⟨event, input, rfl, record, isRecord, number, names⟩ := consumed
  obtain ⟨record', isRecord', alike⟩ := List.mem_map.mp (records (List.mem_map_of_mem isRecord))
  refine ⟨event, input, rfl, record', isRecord', ?_, ?_⟩
  · rw [← recordSeq_untimed, alike, recordSeq_untimed, number]
  · rw [← untimed_field (by decide), alike, untimed_field (by decide), names, waitText, waitText, same]

section Carry

variable {artifact a b : Json} {evidence entries : List Json}

theorem Checkpoint.carry (checkpoint : Checkpoint artifact a evidence entries)
    (reads : ∀ p ∈ checkpointPaths, b.at? p = a.at? p)
    (records : (consumption b).map untimed = (consumption a).map untimed) :
    Checkpoint artifact b evidence entries := by
  have texts : ∀ key ∈ ["checkpoint_id", "workflow_step_id"], waitText key b = waitText key a := by
    intro key isKey
    refine congrArg (fun value : Option Json => (value.getD null).strOr) (reads _ ?_)
    revert key
    decide
  obtain ⟨fs, stored, listed, sameId, sameStep⟩ := checkpoint.progress
  refine ⟨(reads _ (by decide)).trans checkpoint.stored, fun item isItem => ?_, ⟨fs, ?_, listed, ?_, ?_⟩, ?_⟩
  · exact (checkpoint.consumed item isItem).carry (records ▸ List.Subset.refl _) (reads _ (by decide))
  · exact (reads _ (by decide)).trans stored
  · rw [texts _ (by decide), sameId]
  · rw [texts _ (by decide), sameStep]
  · rw [texts _ (by decide)]
    exact checkpoint.ledger

theorem Spares.checkpoint (spares : Spares a b) (checkpoint : Checkpoint artifact a evidence entries) :
    Checkpoint artifact b evidence entries := checkpoint.carry spares.reads spares.records

theorem Spares.checkpointed (spares : Spares a b) (checkpointed : Checkpointed artifact a) :
    Checkpointed artifact b := by
  intro waiting
  obtain ⟨evidence, entries, checkpoint⟩ := checkpointed (spares.waiting ▸ waiting)
  exact ⟨evidence, entries, spares.checkpoint checkpoint⟩

theorem Spares.received (spares : Spares a b) (received : Received a) : Received b := by
  intro waiting
  obtain ⟨evidence, latest, stored, isItem, isLatest⟩ := received (spares.waiting ▸ waiting)
  exact ⟨evidence, latest, (spares.reads _ (by decide)).trans stored, isItem, spares.latest.trans isLatest⟩

end Carry

/-! ### Taking evidence -/

/-- The ledger and the waits entered so far are as in another token. -/
structure SameLedger (a b : Json) : Prop where
  progress : b.at? ["control", "evidence_progress"] = a.at? ["control", "evidence_progress"]
  entered : b.at? ["control", "wait_checkpoints"] = a.at? ["control", "wait_checkpoints"]
  waiting : (wait? b).isSome = (wait? a).isSome

theorem SameLedger.trans {a b c : Json} (first : SameLedger a b) (second : SameLedger b c) :
    SameLedger a c :=
  ⟨second.progress.trans first.progress, second.entered.trans first.entered,
    second.waiting.trans first.waiting⟩

theorem Spares.sameLedger {a b : Json} (spares : Spares a b) : SameLedger a b :=
  ⟨spares.reads _ (by decide), spares.reads _ (by decide), spares.waiting⟩

/-- The items are the evidence of inputs among the events. -/
def Drawn (events : List TerminalEvent) (items : List Json) : Prop :=
  ∀ item ∈ items, ∃ event ∈ events, event.direction = .input ∧ item = event.evidence

theorem Drawn.nil (events : List TerminalEvent) : Drawn events [] :=
  fun _ none => absurd none List.not_mem_nil

theorem Drawn.append {events : List TerminalEvent} {items more : List Json}
    (first : Drawn events items) (second : Drawn events more) : Drawn events (items ++ more) :=
  fun item isItem => (List.mem_append.mp isItem).elim (first item) (second item)

/-- What taking events in makes of a checkpoint: its evidence grows by what is collected. -/
structure Gathers (artifact : Json) (events : List TerminalEvent) (a b : Json × List Json) : Prop where
  same : SameLedger a.1 b.1
  status : b.1.at? ["status"] = a.1.at? ["status"]
  grows : ∀ evidence entries, Checkpoint artifact a.1 evidence entries →
    ∃ added, Drawn events added ∧ b.2 = a.2 ++ added ∧
      Checkpoint artifact b.1 (evidence ++ added) entries

section Taking

variable {artifact : Json} {events : List TerminalEvent}

theorem Gathers.refl (taken : Json × List Json) : Gathers artifact events taken taken :=
  ⟨⟨rfl, rfl, rfl⟩, rfl, fun _ _ checkpoint => ⟨[], .nil _, by simp, by rwa [List.append_nil]⟩⟩

theorem Gathers.trans {a b c : Json × List Json} (first : Gathers artifact events a b)
    (second : Gathers artifact events b c) : Gathers artifact events a c := by
  refine ⟨first.same.trans second.same, second.status.trans first.status,
    fun evidence entries checkpoint => ?_⟩
  obtain ⟨added, drawn, collected, checkpoint⟩ := first.grows _ _ checkpoint
  obtain ⟨more, drawn', collected', checkpoint⟩ := second.grows _ _ checkpoint
  exact ⟨added ++ more, drawn.append drawn', by rw [collected', collected, List.append_assoc],
    by rwa [List.append_assoc] at checkpoint⟩

/-- Taking one input adds it to the evidence, under a record of this checkpoint. -/
theorem Took.checkpoint {event : TerminalEvent} {a b : Json} {evidence entries : List Json}
    (took : Took event a b) (input : event.direction = .input)
    (checkpoint : Checkpoint artifact a evidence entries) :
    Checkpoint artifact b (evidence ++ [event.evidence]) entries := by
  obtain ⟨xs, before, after⟩ := took.evidence
  obtain ⟨record, records, isRecord⟩ := took.record
  rw [checkpoint.stored, Option.getD_some] at before
  obtain rfl := Json.arr.inj before
  have texts : ∀ key ∈ ["checkpoint_id", "workflow_step_id"], waitText key b = waitText key a := by
    intro key isKey
    refine congrArg (fun value : Option Json => (value.getD null).strOr) (took.others _ ?_ ?_)
    · revert key
      decide
    · revert key
      decide
  obtain ⟨fs, stored, listed, sameId, sameStep⟩ := checkpoint.progress
  refine ⟨after, fun item isItem => ?_,
    ⟨fs, (took.others _ (by decide) (by decide)).trans stored, listed, ?_, ?_⟩, ?_⟩
  · rcases List.mem_append.mp isItem with old | new
    · refine (checkpoint.consumed item old).carry ?_ (took.others _ (by decide) (by decide))
      rw [records, List.map_append]
      exact List.subset_append_left _ _
    · obtain rfl := List.mem_singleton.mp new
      refine ⟨event, input, rfl, record, by rw [records]; simp, ?_, ?_⟩
      · rw [← recordSeq_untimed, isRecord]
        rfl
      · rw [← untimed_field (by decide), isRecord, texts _ (by decide)]
        rfl
  · rw [texts _ (by decide), sameId]
  · rw [texts _ (by decide), sameStep]
  · rw [texts _ (by decide)]
    exact checkpoint.ledger.grow (List.subset_append_left _ _)

theorem Does.gathers {now : String} {event : TerminalEvent} {taken taken' : Json × List Json}
    (does : Does now event taken taken') (isEvent : event ∈ events) :
    Gathers artifact events taken taken' := by
  cases does with
  | leaves alike same =>
    refine ⟨alike.spares.sameLedger, (alike.reads _ (by decide)).symm, fun _ _ checkpoint => ?_⟩
    exact ⟨[], .nil _, by rw [same, List.append_nil], by
      rw [List.append_nil]
      exact alike.spares.checkpoint checkpoint⟩
  | @takes mid alike toward may took added =>
    have rest : SameLedger mid taken'.1 := ⟨took.others _ (by decide) (by decide),
      took.others _ (by decide) (by decide), took.waiting.trans alike.waiting.2.symm⟩
    refine ⟨alike.spares.sameLedger.trans rest,
      (took.others _ (by decide) (by decide)).trans (alike.reads _ (by decide)).symm,
      fun _ _ checkpoint => ⟨_, fun item isItem => ?_, added, ?_⟩⟩
    · exact ⟨event, isEvent, toward, List.mem_singleton.mp isItem⟩
    · exact took.checkpoint toward (alike.spares.checkpoint checkpoint)

/-- Taking in one event after the other. -/
theorem gathers_all {now : String}
    {take : Json × List Json → TerminalEvent → Option (Json × List Json)}
    (does : ∀ {event taken taken'}, (wait? taken.1).isSome = true → take taken event = some taken' →
      Does now event taken taken') {read : List TerminalEvent} {taken taken' : Json × List Json}
    (has : (wait? taken.1).isSome = true) (took : read.foldlM take taken = some taken')
    (among : read ⊆ events) : Gathers artifact events taken taken' := by
  induction read generalizing taken with
  | nil =>
    obtain rfl : taken = taken' := Option.some.inj took
    exact .refl _
  | cons event rest ih =>
    rw [List.foldlM_cons] at took
    obtain ⟨next, first, later⟩ := Option.bind_eq_some_iff.mp took
    have step := does has first
    obtain ⟨isEvent, among⟩ := List.cons_subset.mp among
    exact (step.gathers isEvent).trans (ih step.waiting later among)

/-- What both ways of taking inputs leave of a checkpoint. -/
structure Taken (artifact : Json) (events : List TerminalEvent) (token token' : Json)
    (resumed : Bool) : Prop where
  same : SameLedger token token'
  grows : ∀ evidence entries, Checkpoint artifact token evidence entries →
    ∃ added, Drawn events added ∧ Checkpoint artifact token' (evidence ++ added) entries
  received : resumed = true → (∃ evidence entries, Checkpoint artifact token evidence entries) →
    Received token'
  status : resumed = false → token'.at? ["status"] = token.at? ["status"]

theorem finish_taken {start : Json} {taken : Json × List Json} {token' : Json} {resumed : Bool}
    (gathers : Gathers artifact events (start, []) taken) (has : (wait? taken.1).isSome = true)
    (finished : finishTaking taken = some (token', resumed)) :
    Taken artifact events start token' resumed := by
  unfold finishTaking at finished
  cases last : taken.2.getLast? with
  | none =>
    rw [last] at finished
    obtain ⟨rfl, rfl⟩ := Prod.mk.inj (Option.some.inj finished)
    refine ⟨gathers.same, fun evidence entries checkpoint => ?_, nofun, fun _ => gathers.status⟩
    obtain ⟨added, drawn, -, checkpoint⟩ := gathers.grows _ _ checkpoint
    exact ⟨added, drawn, checkpoint⟩
  | some latest =>
    rw [last] at finished
    obtain ⟨received, receive, same⟩ := Option.map_eq_some_iff.mp finished
    obtain ⟨rfl, rfl⟩ := Prod.mk.inj same
    obtain ⟨-, isLatest, -, -, others, records, waiting⟩ := receive_reads has receive
    have isRead : ∀ p ∈ checkpointPaths, p ∈ intakePaths ∧ p ∉ [["control", "wait", "status"],
        ["control", "latest_evidence"], ["status"], ["phase"]] := by decide
    have reads : ∀ p ∈ checkpointPaths, at? p received = at? p taken.1 := fun p isPath =>
      others p (isRead p isPath).1 (isRead p isPath).2
    have kept : ∀ {evidence entries}, Checkpoint artifact taken.1 evidence entries →
        Checkpoint artifact received evidence entries := fun checkpoint =>
      checkpoint.carry reads (congrArg (List.map untimed) records)
    refine ⟨gathers.same.trans ⟨reads _ (by decide), reads _ (by decide), waiting.trans has.symm⟩,
      fun evidence entries checkpoint => ?_, fun _ held _ => ?_, nofun⟩
    · obtain ⟨added, drawn, -, checkpoint⟩ := gathers.grows _ _ checkpoint
      exact ⟨added, drawn, kept checkpoint⟩
    · obtain ⟨evidence, entries, checkpoint⟩ := held
      obtain ⟨added, -, collected, checkpoint⟩ := gathers.grows _ _ checkpoint
      rw [List.nil_append] at collected
      exact ⟨_, latest, (kept checkpoint).stored,
        List.mem_append_right _ (collected ▸ List.mem_of_getLast? last), isLatest⟩

theorem Taken.of_alike {token start token' : Json} {resumed : Bool} (alike : Alike token start)
    (taken : Taken artifact events start token' resumed) :
    Taken artifact events token token' resumed := by
  refine ⟨alike.spares.sameLedger.trans taken.same,
    fun _ _ checkpoint => taken.grows _ _ (alike.spares.checkpoint checkpoint), fun resumed held => ?_,
    fun kept => (taken.status kept).trans (alike.reads _ (by decide)).symm⟩
  obtain ⟨evidence, entries, checkpoint⟩ := held
  exact taken.received resumed ⟨_, _, alike.spares.checkpoint checkpoint⟩

/-- The inputs that are there when a wait is entered. -/
theorem consume_pending_taken {now : String} {latest : Int} {token token' : Json} {resumed : Bool}
    (has : (wait? token).isSome = true)
    (waiting : hasStatus token "waiting" = true)
    (did : consumePendingTerminalInputs now latest events token = some (token', resumed)) :
    Taken artifact events token token' resumed := by
  obtain ⟨wait, isWait⟩ := Option.isSome_iff_exists.mp has
  obtain ⟨start, taken, alike, -, took, finished⟩ := fast_spec isWait waiting did
  have gathers : Gathers artifact events (start, []) taken :=
    gathers_all consume_event_does alike.waiting.2 took (events_between_subset _ _ _)
  exact (finish_taken gathers (gathers.same.waiting.trans alike.waiting.2) finished).of_alike alike

/-- The inputs at the start of a turn. -/
theorem sync_taken {now : String} {token token' : Json}
    (waiting : isWaiting token = true) (did : syncTerminalEvents now events token = some token') :
    ∃ resumed, Taken artifact events token token' resumed := by
  obtain ⟨isStatus, has⟩ := Bool.and_eq_true_iff.mp waiting
  obtain ⟨wait, isWait⟩ := Option.isSome_iff_exists.mp has
  obtain ⟨cursor, isCursor⟩ : ∃ cursor, cursor? token = some cursor := by
    unfold syncTerminalEvents at did
    rw [if_neg (by simp [waiting])] at did
    obtain ⟨cursor, isCursor, -⟩ := Option.bind_eq_some_iff.mp did
    exact ⟨cursor, isCursor⟩
  obtain ⟨start, taken, accept, resumed, alike, -, -, took, finished⟩ :=
    slow_spec isWait isStatus isCursor did
  have gathers : Gathers artifact events (start, []) taken :=
    gathers_all sync_event_does alike.waiting.2 took (events_from_subset _ _)
  exact ⟨resumed,
    (finish_taken gathers (gathers.same.waiting.trans alike.waiting.2) finished).of_alike alike⟩

end Taking

/-! ### What an evaluation is asked about -/

section Context

variable {now runId projectionRef : String} {artifact node token : Json}
  {evidence entries : List Json}

theorem Checkpoint.wait (checkpoint : Checkpoint artifact token evidence entries) :
    ∃ fs, wait? token = some (obj fs) ∧ lookup "evidence" fs = some (arr evidence) := by
  obtain ⟨fs, found⟩ := object_above ["control", "wait"] "evidence" checkpoint.stored
  refine ⟨fs, wait_of_at found, ?_⟩
  have read := at?_below found ["evidence"]
  rw [List.cons_append, List.cons_append, List.nil_append] at read
  have stored := read.symm.trans checkpoint.stored
  rw [at?_cons, field?_obj] at stored
  obtain ⟨value, isValue, same⟩ := Option.bind_eq_some_iff.mp stored
  obtain rfl : value = arr evidence := Option.some.inj same
  exact isValue

theorem wait_text {wait : Json} (has : wait? token = some wait) (key : String) :
    (wait.field key).strOr = waitText key token := by
  have read := @wait_field token (by rw [has]; rfl) key
  rw [has, Option.getD_some] at read
  rw [waitText, read]

/-- The ledger of a checkpoint belongs to its wait. -/
theorem Checkpoint.matched (checkpoint : Checkpoint artifact token evidence entries) :
    ∃ fs, evidenceProgress? token = some (obj fs) ∧ lookup "requirements" fs = some (arr entries) ∧
      ∀ wait, wait? token = some wait → progressMatchesWait (obj fs) wait = true := by
  obtain ⟨fs, stored, listed, sameId, sameStep⟩ := checkpoint.progress
  refine ⟨fs, by rw [evidenceProgress?, stored], listed, fun wait has => ?_⟩
  simp only [progressMatchesWait, Bool.and_eq_true, beq_iff_eq]
  exact ⟨by rw [sameId, wait_text has], by rw [sameStep, wait_text has]⟩

theorem context_entries (evaluates : isEvaluation node = true)
    (checkpoint : Checkpoint artifact token evidence entries) :
    (buildRunnerContext now runId projectionRef artifact node token).entries = entries := by
  obtain ⟨ws, has, stored⟩ := checkpoint.wait
  obtain ⟨fs, isProgress, listed, matched⟩ := checkpoint.matched
  have nonempty : (obj ws).fields.isEmpty = false := by
    cases ws with
    | nil => cases stored
    | cons => rfl
  have shown : runnerEvidenceProgress now artifact node token = obj fs := by
    simp only [runnerEvidenceProgress, has, nonempty, isProgress, Option.getD_some, matched _ has,
      if_true, Bool.false_eq_true, if_false]
  rw [RunnerContext.entries, buildRunnerContext]
  simp only [evaluates, if_true, shown, field_obj, listed]
  rfl

theorem context_evidence (evaluates : isEvaluation node = true)
    (checkpoint : Checkpoint artifact token evidence entries) :
    (buildRunnerContext now runId projectionRef artifact node token).currentCheckpoint.field
      "evidence" = arr evidence := by
  obtain ⟨ws, has, stored⟩ := checkpoint.wait
  simp only [buildRunnerContext, runnerCurrentCheckpoint, evaluates, has, field_obj, stored]
  rfl

/-- Without a wait there is no ledger to evaluate. -/
theorem context_empty (asleep : wait? token = none) :
    (buildRunnerContext now runId projectionRef artifact node token).requirements = [] := by
  simp only [RunnerContext.requirements, buildRunnerContext, runnerEvidenceProgress, asleep]
  cases isEvaluation node <;> rfl

theorem context_latest (evaluates : isEvaluation node = true) {latest : Json}
    (isLatest : token.at? ["control", "latest_evidence"] = some latest) (isObj : latest.isObj = true) :
    (buildRunnerContext now runId projectionRef artifact node token).latestEvidence = latest := by
  have read : (token.field "control").field "latest_evidence" = latest := by
    obtain ⟨control, isControl, below⟩ := Option.bind_eq_some_iff.mp isLatest
    have isField : token.field "control" = control := by
      rw [field, isControl, Option.getD_some]
    rw [isField, field_read, below, Option.getD_some]
  simp only [buildRunnerContext, read, evaluates, isObj, Bool.and_self, if_true]

theorem consumed_number {item : Json} (consumed : Consumed token item) :
    item.isObj = true ∧ ∃ n : Nat, strictInt? (item.field "seq_no") = some (n : Int) := by
  obtain ⟨event, -, rfl, -⟩ := consumed
  refine ⟨rfl, event.seqNo, ?_⟩
  rw [field, event.evidence_seqNo]
  rfl

theorem mem_checkpoint_refs {context : RunnerContext} {candidate : String}
    (isShown : context.currentCheckpoint.field "evidence" = arr evidence)
    (isLatest : context.latestEvidence ∈ evidence)
    (isRef : candidate ∈ context.checkpointEventRefs) :
    ∃ item ∈ evidence, candidate ∈ eventRefs item := by
  rw [RunnerContext.checkpointEventRefs, isShown] at isRef
  rcases List.mem_append.mp isRef with stored | latest
  · obtain ⟨item, isItem, answers⟩ := List.mem_flatMap.mp stored
    exact ⟨item, List.mem_of_mem_filter isItem, answers⟩
  · exact ⟨_, isLatest, latest⟩

/-- What the evidence check compares with is the evidence of the checkpoint. -/
theorem inside_evidence (evaluates : isEvaluation node = true)
    (checkpoint : Checkpoint artifact token evidence entries) (received : Received token) :
    let context := buildRunnerContext now runId projectionRef artifact node token
    context.checkpointEventRefs ≠ [] ∧ ∀ ref seqNo, terminalRefSeq ref = some seqNo →
      (∃ candidate ∈ context.checkpointEventRefs, terminalRefSeq candidate = some seqNo) →
      Names evidence ref := by
  obtain ⟨ws, has, -⟩ := checkpoint.wait
  obtain ⟨evidence', latest, stored, isItem, isLatest⟩ := received (by rw [has]; rfl)
  obtain rfl := Json.arr.inj (Option.some.inj (checkpoint.stored.symm.trans stored))
  obtain ⟨isObj, n, number⟩ := consumed_number (checkpoint.consumed latest isItem)
  have shown := @context_evidence now runId projectionRef _ _ _ _ _ evaluates checkpoint
  have isLatest := @context_latest now runId projectionRef artifact _ _ evaluates _ isLatest isObj
  intro context
  refine ⟨List.ne_nil_of_mem (List.mem_append_right _ (?_ : eventRef n ∈ _)),
    fun ref seqNo names inside => ?_⟩
  · rw [isLatest]
    exact (event_ref_own number).1
  · obtain ⟨candidate, isCandidate, sameSeq⟩ := inside
    obtain ⟨item, isItem, answers⟩ := mem_checkpoint_refs shown (isLatest.symm ▸ isItem) isCandidate
    exact ⟨item, isItem, seqNo, names, event_refs_seq answers sameSeq⟩

end Context

/-! ### Merging an evaluation -/

/-- Results that were validated for a token. -/
structure Validated (artifact token : Json) (results : List RequirementResult) : Prop where
  named : ∀ result ∈ results, resultKey result ≠ ""
  distinct : (results.map resultKey).Nodup
  waiting : results ≠ [] → (wait? token).isSome = true
  vouched : ∀ evidence entries, Checkpoint artifact token evidence entries → Received token →
    ∀ result ∈ results, Vouched evidence result

section Merging

variable {now runId projectionRef nodeId : String} {artifact node token observation charged : Json}

theorem Validated.spared {a b : Json} {results : List RequirementResult}
    (validated : Validated artifact a results) (spares : Spares a b) :
    Validated artifact b results :=
  ⟨validated.named, validated.distinct, fun some_ => spares.waiting.trans (validated.waiting some_),
    fun _ _ checkpoint received => validated.vouched _ _ (spares.symm.checkpoint checkpoint)
      (spares.symm.received received)⟩

/-- **Accepted results cite the evidence of their checkpoint.** -/
theorem accepted_validated {candidate validated : RunnerObservation}
    (accepted : validateRunnerObservation
      (buildRunnerContext now runId projectionRef artifact node token) candidate = .ok validated)
    (evaluates : isEvaluation node = true) :
    Validated artifact token validated.evidenceAssessment.requirementResults := by
  obtain ⟨⟨-, -, assessed⟩, -, same⟩ := validate_spec accepted evaluates
  rw [same]
  refine ⟨fun result isResult => ?_, assessed.distinct, fun some_ => ?_,
    fun evidence entries checkpoint received result isResult => ?_⟩
  · obtain ⟨_, found, -⟩ := assessed.known result isResult
    exact (requirements_hold found).2.2
  · obtain ⟨result, isResult⟩ := List.exists_mem_of_ne_nil _ some_
    obtain ⟨_, found, -⟩ := assessed.known result isResult
    refine Option.isSome_iff_ne_none.mpr fun asleep => ?_
    rw [context_empty asleep] at found
    cases found
  · obtain ⟨_, -, admits⟩ := assessed.known result isResult
    obtain ⟨some_, inside⟩ := @inside_evidence now runId projectionRef _ _ _ _ _ evaluates checkpoint
      received
    refine ⟨admits.cites, fun _ ref isRef => ?_⟩
    obtain ⟨seqNo, names, found⟩ := admits.inside some_ ref isRef
    exact inside ref seqNo names found

theorem no_results (artifact token : Json) : Validated artifact token [] :=
  ⟨nofun, .nil, fun some_ => absurd rfl some_, fun _ _ _ _ => nofun⟩

/-- Only the runner assesses requirements. -/
theorem execute_results {outcome : AgentOutcome}
    (ran : executeNode now runId projectionRef artifact node token outcome =
      .ok (observation, charged)) (evaluates : isEvaluation node = true) :
    ∃ results, requirementResults observation = results.map requirementResultJson ∧
      Validated artifact token results := by
  unfold executeNode at ran
  simp only at ran
  split at ran
  · obtain ⟨rfl, -⟩ := Prod.mk.inj (Except.ok.inj ran)
    exact ⟨[], rfl, no_results artifact token⟩
  split at ran
  · obtain ⟨rfl, -⟩ := Prod.mk.inj (Except.ok.inj ran)
    exact ⟨[], rfl, no_results artifact token⟩
  split at ran
  · unfold executeRunnerAgentNode at ran
    split at ran
    · cases ran
    · cases ran
    · split at ran
      · cases ran
      · rename_i validated accepted
        split at ran
        · cases ran
        · obtain ⟨rfl, -⟩ := Prod.mk.inj (Except.ok.inj ran)
          exact ⟨_, rfl, accepted_validated accepted evaluates⟩
  split at ran
  · split at ran
    · cases ran
    · obtain ⟨rfl, -⟩ := Prod.mk.inj (Except.ok.inj ran)
      exact ⟨[], rfl, no_results artifact token⟩
  split at ran
  · obtain ⟨rfl, -⟩ := Prod.mk.inj (Except.ok.inj ran)
    exact ⟨[], rfl, no_results artifact token⟩
  · cases ran

/-- What merging makes of a token: the entries of its ledger go on, all else of the checkpoint stays. -/
structure Merges (artifact a b : Json) : Prop where
  entered : b.at? ["control", "wait_checkpoints"] = a.at? ["control", "wait_checkpoints"]
  latest : b.at? ["control", "latest_evidence"] = a.at? ["control", "latest_evidence"]
  stored : b.at? ["control", "wait", "evidence"] = a.at? ["control", "wait", "evidence"]
  waiting : (wait? b).isSome = (wait? a).isSome
  ledger : ∀ evidence entries, Checkpoint artifact a evidence entries →
    ∃ entries', Checkpoint artifact b evidence entries' ∧ List.Forall₂ Advance entries entries' ∧
      List.Forall₂ Releases entries entries'

theorem Spares.merges {a b : Json} (spares : Spares a b) : Merges artifact a b :=
  ⟨spares.reads _ (by decide), spares.latest, spares.reads _ (by decide), spares.waiting,
    fun _ entries checkpoint => ⟨entries, spares.checkpoint checkpoint,
      List.forall₂_same.mpr fun _ _ => .refl _, List.forall₂_same.mpr fun _ _ => .inl⟩⟩

theorem Merges.spared {a b c : Json} (merges : Merges artifact a b) (spares : Spares b c) :
    Merges artifact a c := by
  refine ⟨(spares.reads _ (by decide)).trans merges.entered, spares.latest.trans merges.latest,
    (spares.reads _ (by decide)).trans merges.stored, spares.waiting.trans merges.waiting,
    fun evidence entries checkpoint => ?_⟩
  obtain ⟨entries', checkpoint, rest⟩ := merges.ledger _ _ checkpoint
  exact ⟨entries', spares.checkpoint checkpoint, rest⟩

theorem Merges.after {a b c : Json} (spares : Spares a b) (merges : Merges artifact b c) :
    Merges artifact a c :=
  ⟨merges.entered.trans (spares.reads _ (by decide)), merges.latest.trans spares.latest,
    merges.stored.trans (spares.reads _ (by decide)), merges.waiting.trans spares.waiting,
    fun _ _ checkpoint => merges.ledger _ _ (spares.checkpoint checkpoint)⟩

theorem Merges.checkpointed {a b : Json} (merges : Merges artifact a b)
    (checkpointed : Checkpointed artifact a) : Checkpointed artifact b := by
  intro waiting
  obtain ⟨evidence, entries, checkpoint⟩ := checkpointed (merges.waiting ▸ waiting)
  obtain ⟨entries', checkpoint, -⟩ := merges.ledger _ _ checkpoint
  exact ⟨evidence, entries', checkpoint⟩

theorem Merges.received {a b : Json} (merges : Merges artifact a b) (received : Received a) :
    Received b := by
  intro waiting
  obtain ⟨evidence, latest, stored, isItem, isLatest⟩ := received (merges.waiting ▸ waiting)
  exact ⟨evidence, latest, merges.stored.trans stored, isItem, merges.latest.trans isLatest⟩

/-- The ledger as one write. -/
theorem merge_evidence_spec {evidence entries : List Json} {token' : Json}
    (checkpoint : Checkpoint artifact token evidence entries)
    (some_ : (requirementResults observation).isEmpty = false)
    (merged : mergeEvidenceProgress now nodeId artifact observation token = some token') :
    ∃ filled fs, Spares token filled ∧ Checkpoint artifact filled evidence entries ∧
      lookup "requirements" fs = some (arr entries) ∧
      filled.at? ["control", "evidence_progress"] = some (obj fs) ∧
      filled.put? ["control", "evidence_progress"]
        (mergeResults now nodeId (requirementResults observation) (obj fs)) = some token' := by
  unfold mergeEvidenceProgress at merged
  simp only [some_, Bool.false_eq_true, if_false] at merged
  obtain ⟨filled, fill, merged⟩ := Option.bind_eq_some_iff.mp merged
  have spares : Spares token filled := spares_of_writes (Writes.fill "latest_evaluation" fill) (by decide)
  have checkpoint := spares.checkpoint checkpoint
  obtain ⟨ws, has, -⟩ := checkpoint.wait
  obtain ⟨fs, isProgress, listed, matched⟩ := checkpoint.matched
  have current : currentProgress now nodeId artifact filled = some (obj fs) := by
    simp only [currentProgress, has, isProgress, Option.getD_some, matched _ has, if_true]
  rw [current] at merged
  obtain ⟨gs, stored, -⟩ := checkpoint.progress
  rw [evidenceProgress?, stored] at isProgress
  obtain rfl := Json.obj.inj (Option.some.inj isProgress)
  exact ⟨filled, gs, spares, checkpoint, listed, stored, merged⟩

theorem merge_evidence_merges {results : List RequirementResult} {token' : Json}
    (isResults : requirementResults observation = results.map requirementResultJson)
    (validated : Validated artifact token results) (checkpointed : Checkpointed artifact token)
    (received : Received token)
    (merged : mergeEvidenceProgress now nodeId artifact observation token = some token') :
    Merges artifact token token' := by
  cases none_ : (requirementResults observation).isEmpty with
  | true =>
    unfold mergeEvidenceProgress at merged
    simp only [none_, if_true] at merged
    obtain rfl := Option.some.inj merged
    exact (Spares.refl _).merges
  | false =>
    have some_ : results ≠ [] := by
      rintro rfl
      rw [isResults] at none_
      cases none_
    have waits := validated.waiting some_
    obtain ⟨evidence, entries, checkpoint⟩ := checkpointed waits
    obtain ⟨filled, fs, spares, held, listed, stored, put⟩ :=
      merge_evidence_spec checkpoint none_ merged
    have free : ∀ p, Apart ["control", "evidence_progress"] p → at? p token' = at? p filled :=
      fun p apart => at?_put?_apart apart put
    have sameWait : wait? token' = wait? filled := by rw [wait?, free _ (by decide), ← wait?]
    refine ⟨(free _ (by decide)).trans (spares.reads _ (by decide)),
      (free _ (by decide)).trans spares.latest, (free _ (by decide)).trans (spares.reads _ (by decide)),
      by rw [sameWait, spares.waiting], fun evidence' entries' checkpoint' => ?_⟩
    obtain rfl := Json.arr.inj (Option.some.inj (checkpoint.stored.symm.trans checkpoint'.stored))
    have same : entries' = entries := by
      obtain ⟨gs, stored', listed', -⟩ := (spares.checkpoint checkpoint').progress
      obtain rfl := Json.obj.inj (Option.some.inj (stored.symm.trans stored'))
      exact Json.arr.inj (Option.some.inj (listed'.symm.trans listed))
    subst same
    obtain ⟨merged', isMerged, ledger, advance, releases⟩ := @Ledger.merged now nodeId _ _ _ _
      held.ledger validated.named validated.distinct (validated.vouched _ _ checkpoint received)
    obtain ⟨isList, others⟩ := @merge_results_fields now nodeId _ (obj fs) listed
      (requirementResults observation)
    have texts : ∀ key ∈ ["checkpoint_id", "workflow_step_id"],
        waitText key token' = waitText key filled := by
      intro key isKey
      refine congrArg (fun value : Option Json => (value.getD null).strOr) (free _ ?_)
      revert key
      decide
    have records : consumption token' = consumption filled := by
      rw [consumption, consumption, free _ (by decide)]
    obtain ⟨gs, stored', -, sameId, sameStep⟩ := held.progress
    obtain rfl := Json.obj.inj (Option.some.inj (stored.symm.trans stored'))
    rw [isResults, isMerged] at isList
    refine ⟨merged', ⟨(free _ (by decide)).trans held.stored, fun item isItem => ?_,
      ⟨_, at?_put?_same put, ?_, ?_, ?_⟩, ?_⟩, advance, releases⟩
    · exact (held.consumed item isItem).carry (by rw [records]; exact List.Subset.refl _)
        (free _ (by decide))
    · rw [isResults]
      exact isList
    · rw [texts _ (by decide), ← sameId, ← mergeResults, field, others _ (by decide), ← field]
    · rw [texts _ (by decide), ← sameStep, ← mergeResults, field, others _ (by decide), ← field]
    · rw [texts _ (by decide)]
      exact ledger

end Merging

/-! ### The tokens of a turn -/

/-- Where the runtime keeps the checkpoint. -/
def keptPaths : List (List String) :=
  ["control", "wait"] :: ["control", "terminal_consumption"] :: ["control", "latest_evidence"] ::
    checkpointPaths

/-- No merge operation of the node writes along a path of the checkpoint or takes its value from along
one, and if the node evaluates, none names what it assesses. -/
structure LeavesLedger (node : Json) : Prop where
  merges : ∀ operation ∈ (node.field "merge").items, ∀ p ∈ keptPaths, OperationApart operation p
  assesses : isEvaluation node = true → ∀ operation ∈ (node.field "merge").items,
    OperationSpares "evidence_assessment" operation

/-- The node's merges leave the checkpoint alone, and if it evaluates it opens no wait of its own. -/
structure LeavesCheckpoint (node : Json) : Prop extends LeavesLedger node where
  evaluates : isEvaluation node = true →
    ((interaction node).field "wait_after_output").truthy = false

/-- No node of the artifact does. -/
def LeavesCheckpoints (artifact : Json) : Prop := ∀ node ∈ artifactNodes artifact, LeavesCheckpoint node

instance (node : Json) : Decidable (LeavesLedger node) :=
  decidable_of_iff ((∀ operation ∈ (node.field "merge").items, ∀ p ∈ keptPaths, OperationApart operation p) ∧
      (isEvaluation node = true → ∀ operation ∈ (node.field "merge").items,
        OperationSpares "evidence_assessment" operation))
    ⟨fun both => ⟨both.1, both.2⟩, fun leaves => ⟨leaves.merges, leaves.assesses⟩⟩

instance (node : Json) : Decidable (LeavesCheckpoint node) :=
  decidable_of_iff (LeavesLedger node ∧
      (isEvaluation node = true → ((interaction node).field "wait_after_output").truthy = false))
    ⟨fun both => ⟨both.1, both.2⟩, fun leaves => ⟨leaves.toLeavesLedger, leaves.evaluates⟩⟩

instance (artifact : Json) : Decidable (LeavesCheckpoints artifact) :=
  inferInstanceAs (Decidable (∀ node ∈ artifactNodes artifact, LeavesCheckpoint node))

/-- A stored token waits for evidence or has received it. -/
structure Rested (artifact token : Json) : Prop where
  checkpointed : Checkpointed artifact token
  waits : hasStatus token "waiting" = true ∨ Received token

/-- A turn works on evidence that was received. -/
structure Attended (artifact token : Json) : Prop where
  checkpointed : Checkpointed artifact token
  received : Received token

section Tokens

variable {artifact : Json}

theorem Attended.rested {token : Json} (attended : Attended artifact token) : Rested artifact token :=
  ⟨attended.checkpointed, .inr attended.received⟩

theorem Spares.attended {a b : Json} (spares : Spares a b) (attended : Attended artifact a) :
    Attended artifact b :=
  ⟨spares.checkpointed attended.checkpointed, spares.received attended.received⟩

theorem compact_spares (sha256 : String → String) (token : Json) :
    Spares token (compactRuntimeToken sha256 token) :=
  spares_of_writes (compact_writes sha256 token) (by decide)

/-- A turn begins with evidence received. -/
theorem sync_attended {now : String} {events : List TerminalEvent} {token token' : Json}
    (rested : Rested artifact token) (did : syncTerminalEvents now events token = some token')
    (awake : hasStatus token' "waiting" = false) :
    Attended artifact token' ∧ SameLedger token token' := by
  cases waiting : isWaiting token with
  | false =>
    unfold syncTerminalEvents at did
    rw [if_pos (by simp [waiting])] at did
    obtain rfl := Option.some.inj did
    refine ⟨⟨rested.checkpointed, rested.waits.resolve_left ?_⟩, rfl, rfl, rfl⟩
    rw [awake]
    decide
  | true =>
    obtain ⟨resumed, taken⟩ := @sync_taken artifact _ _ _ _ waiting did
    obtain ⟨isStatus, has⟩ := Bool.and_eq_true_iff.mp waiting
    obtain ⟨evidence, entries, checkpoint⟩ := rested.checkpointed has
    refine ⟨⟨fun _ => ?_, ?_⟩, taken.same⟩
    · obtain ⟨added, -, checkpoint⟩ := taken.grows _ _ checkpoint
      exact ⟨_, _, checkpoint⟩
    · cases resumed with
      | true => exact taken.received rfl ⟨_, _, checkpoint⟩
      | false =>
        rw [status_read (taken.status rfl), isStatus] at awake
        cases awake

theorem enter_wait_checkpoint {now runId : String} {node observation token entered : Json}
    {accept : Int}
    (did : enterWaitCheckpoint now runId node observation artifact accept token = some entered) :
    (∃ entries, Checkpoint artifact entered [] entries) ∧ hasStatus entered "waiting" = true ∧
      (wait? entered).isSome = true ∧
      (waitCheckpoints entered).length = (waitCheckpoints token).length + 1 := by
  have isView := enter_wait_view did
  have opens : (wait? entered).isSome = true := by
    rw [← window_isSome, isView]
    rfl
  have counts : (waitCheckpoints entered).length = (waitCheckpoints token).length + 1 :=
    congrArg View.checkpoints isView
  obtain ⟨a, wait, did⟩ := Option.bind_eq_some_iff.mp did
  obtain ⟨b, ledger, did⟩ := Option.bind_eq_some_iff.mp did
  obtain ⟨c, listed, did⟩ := Option.bind_eq_some_iff.mp did
  obtain ⟨d, status, phase⟩ := Option.bind_eq_some_iff.mp did
  have later : Writes [["control", "wait_checkpoints"], ["status"], ["phase"]] b entered :=
    (Writes.push listed).trans ((Writes.put status).trans (.put phase))
  have waits : ∀ key value,
      (newWait now runId node observation accept).at? [key] = some value →
        entered.at? ["control", "wait", key] = some value := by
    intro key value read
    rw [later.read (by simp [Apart, apart]), at?_put?_apart (by simp [Apart, apart]) ledger]
    exact (at?_below (at?_put?_same wait) [key]).trans read
  have isId : waitText "checkpoint_id" entered = checkpointId node := by
    rw [waitText, waits _ _ rfl]
    exact str_or_str _
  have isStep : waitText "workflow_step_id" entered = workflowStepId node := by
    rw [waitText, waits _ _ rfl]
    exact str_or_str _
  have stored := (later.read (p := ["control", "evidence_progress"]) (by decide)).trans
    (at?_put?_same ledger)
  have textId : ((newWait now runId node observation accept).field "checkpoint_id").strOr =
      checkpointId node := str_or_str _
  have textStep : ((newWait now runId node observation accept).field "workflow_step_id").strOr =
      workflowStepId node := str_or_str _
  refine ⟨⟨_, waits _ _ rfl, fun _ none => absurd none List.not_mem_nil,
    ⟨_, stored, rfl, ?_, ?_⟩, ?_⟩, ?_, opens, counts⟩
  · rw [isId, ← textId]
    exact str_or_str _
  · rw [isStep, ← textStep]
    exact str_or_str _
  · rw [isStep, textStep]
    exact ledger_opens now (nodeId node) artifact _
  · rw [status_read (at?_put?_apart (by decide) phase)]
    exact status_written status

/-- A wait is entered with no evidence, and perhaps received at once. -/
theorem wait_after_output_checkpoint {now runId : String} {latest : Int}
    {events : List TerminalEvent} {node observation token token' : Json} {turnAccept : Int}
    {waits resumed : Bool}
    (did : waitAfterOutput now runId latest events artifact node observation turnAccept token =
      some (token', waits, resumed)) :
    (token' = token ∧ waits = false) ∨
    (((interaction node).field "wait_after_output").truthy = true ∧ Rested artifact token' ∧
      (waits = false → Received token') ∧
      (waitCheckpoints token').length = (waitCheckpoints token).length + 1) := by
  unfold waitAfterOutput at did
  split at did
  · obtain ⟨rfl, same⟩ := Prod.mk.inj (Option.some.inj did)
    exact .inl ⟨rfl, (Prod.mk.inj same).1.symm⟩
  · rename_i wanted
    obtain ⟨entered, enter, did⟩ := Option.bind_eq_some_iff.mp did
    obtain ⟨⟨consumed, took⟩, consume, did⟩ := Option.bind_eq_some_iff.mp did
    obtain ⟨rfl, same⟩ := Prod.mk.inj (Option.some.inj did)
    obtain ⟨rfl, rfl⟩ := Prod.mk.inj same
    obtain ⟨⟨entries, checkpoint⟩, waiting, opens, counts⟩ := enter_wait_checkpoint enter
    have taken : Taken artifact _ entered consumed took := consume_pending_taken opens waiting consume
    have received : took = true → Received consumed := fun resumed =>
      taken.received resumed ⟨_, _, checkpoint⟩
    refine .inr ⟨by simpa using wanted, ⟨fun _ => ?_, ?_⟩, fun resumed => received (by simpa using resumed),
      ?_⟩
    · obtain ⟨added, -, checkpoint⟩ := taken.grows _ _ checkpoint
      exact ⟨_, _, checkpoint⟩
    · cases took with
      | true => exact .inr (received rfl)
      | false => exact .inl ((status_read (taken.status rfl) "waiting").trans waiting)
    · rw [waitCheckpoints, taken.same.entered, ← waitCheckpoints]
      exact counts

theorem reopen_wait_spares {observation token token' : Json} {waits : Bool}
    (reopened : reopenWait observation token = some (token', waits)) : Spares token token' := by
  unfold reopenWait at reopened
  split at reopened
  · obtain ⟨rfl, -⟩ := Prod.mk.inj (Option.some.inj reopened)
    exact .refl _
  · rename_i wait has
    obtain ⟨a, status, reopened⟩ := Option.bind_eq_some_iff.mp reopened
    obtain ⟨b, reason, reopened⟩ := Option.bind_eq_some_iff.mp reopened
    obtain ⟨c, waiting, reopened⟩ := Option.bind_eq_some_iff.mp reopened
    obtain ⟨d, phase, reopened⟩ := Option.bind_eq_some_iff.mp reopened
    obtain ⟨rfl, -⟩ := Prod.mk.inj (Option.some.inj reopened)
    have first := spares_below_wait (by decide) (by rw [has]; rfl) status
    have second := spares_below_wait (by decide) (first.waiting.trans (by rw [has]; rfl)) reason
    have rest : Writes [["status"], ["phase"]] b d := (Writes.put waiting).trans (.put phase)
    exact (first.trans second).trans (spares_of_writes rest (by decide))

theorem abort_token_spares {now target : String} {node observation token token' : Json}
    (aborted : abortToken now target artifact node observation token = some token') :
    Spares token token' := by
  unfold abortToken at aborted
  simp only at aborted
  obtain ⟨a, final, aborted⟩ := Option.bind_eq_some_iff.mp aborted
  obtain ⟨b, record, aborted⟩ := Option.bind_eq_some_iff.mp aborted
  have before : Writes [["outputs", "final_response"], ["control", "abort"]] token b :=
    (Writes.put final).trans (.put record)
  have first := spares_of_writes before (by decide)
  split at aborted
  · exact first.trans (spares_of_writes (.put aborted) (by decide))
  · obtain ⟨c, status, phase⟩ := Option.bind_eq_some_iff.mp aborted
    have rest : Writes [["status"], ["phase"]] b token' := (Writes.put status).trans (.put phase)
    exact first.trans (spares_of_writes rest (by decide))

/-- Only an evaluation is concluded. -/
theorem conclude_plain {now decision target : String} {node observation token : Json}
    {output : Option TerminalOutput} {enteredWait : Bool} (plain : isEvaluation node = false) :
    concludeInteraction now decision target artifact node observation output enteredWait token =
      ⟨token, output, .ok enteredWait⟩ :=
  if_pos (by simp [plain])

theorem conclude_spares {now decision target : String} {node observation token : Json}
    {output : Option TerminalOutput} {enteredWait : Bool} :
    Spares token (concludeInteraction now decision target artifact node observation output enteredWait
      token).token := by
  unfold concludeInteraction
  split
  · exact .refl _
  split
  · exact .refl _
  · rename_i noted note
    have notes : Spares token noted := spares_of_writes (.put note) (by decide)
    split
    · exact notes
    · rename_i decided waits applied
      refine notes.trans ?_
      unfold applyDecision at applied
      split at applied
      · exact reopen_wait_spares applied
      split at applied
      · obtain ⟨aborted, did, same⟩ := Option.map_eq_some_iff.mp applied
        obtain ⟨rfl, -⟩ := Prod.mk.inj same
        exact abort_token_spares did
      split at applied
      · obtain ⟨moved, put, same⟩ := Option.map_eq_some_iff.mp applied
        obtain ⟨rfl, -⟩ := Prod.mk.inj same
        exact spares_of_writes (.put put) (by decide)
      · obtain ⟨rfl, -⟩ := Prod.mk.inj (Option.some.inj applied)
        exact .refl _

/-- What a node does to the checkpoint: it merges into its ledger, or enters another wait. -/
def Proceeds (artifact a b : Json) : Prop :=
  Merges artifact a b ∨ (waitCheckpoints b).length = (waitCheckpoints a).length + 1

/-- What a node makes of the token of a turn, where that is stored or recovered from. -/
structure Leaves (artifact token token' : Json) (goesOn : Prop) : Prop where
  rested : Rested artifact token'
  received : goesOn → Received token'
  proceeds : Proceeds artifact token token'

theorem Merges.leaves {a b : Json} {goesOn : Prop} (merges : Merges artifact a b)
    (attended : Attended artifact a) : Leaves artifact a b goesOn :=
  ⟨⟨merges.checkpointed attended.checkpointed, .inr (merges.received attended.received)⟩,
    fun _ => merges.received attended.received, .inl merges⟩

/-- **A node's interaction** keeps the checkpoint, merges an evaluation into its ledger, or enters
another wait. -/
theorem interaction_leaves {now runId : String} {latest : Int} {events : List TerminalEvent}
    {node observation token : Json} {turnAccept : Int} {applied : Applied}
    {results : List RequirementResult} (leaves : LeavesCheckpoint node)
    (attended : Attended artifact token)
    (isResults : isEvaluation node = true →
      requirementResults observation = results.map requirementResultJson ∧
        Validated artifact token results)
    (did : applyNodeInteraction now runId latest events artifact node observation turnAccept token =
      applied) (kept : isRecoverable applied.token = true ∨ ∃ waits, applied.outcome = .ok waits) :
    Leaves artifact token applied.token (applied.outcome = .ok false) := by
  have same : Merges artifact token token := (Spares.refl token).merges
  unfold applyNodeInteraction at did
  split at did
  · subst did
    exact same.leaves attended
  simp only at did
  split at did
  · subst did
    exact same.leaves attended
  rename_i ledgered ledger
  have merges : Merges artifact token ledgered := by
    split at ledger
    · rename_i evaluates
      obtain ⟨isResults, validated⟩ := isResults evaluates
      exact merge_evidence_merges isResults validated attended.checkpointed attended.received ledger
    · obtain rfl := Option.some.inj ledger
      exact same
  split at did
  · subst did
    rcases kept with recoverable | ⟨waits, ok⟩
    · rw [half_wait_unrecoverable] at recoverable
      cases recoverable
    · cases ok
  · rename_i waited enteredWait resumed wait
    subst did
    rcases wait_after_output_checkpoint wait with ⟨rfl, -⟩ | ⟨wanted, rested, received, counts⟩
    · exact (merges.spared conclude_spares).leaves attended
    · -- only a node that does not evaluate enters a wait, and it concludes nothing
      have plain : isEvaluation node = false := Bool.eq_false_iff.mpr fun evaluates => by
        rw [leaves.evaluates evaluates] at wanted
        cases wanted
      rw [conclude_plain plain]
      refine ⟨rested, fun goesOn => received (Except.ok.inj goesOn), .inr ?_⟩
      rw [counts, waitCheckpoints, merges.entered, ← waitCheckpoints]

end Tokens

end Psop.Runtime
