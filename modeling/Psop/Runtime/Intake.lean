import Psop.Runtime.NodeView

/-!
Two ways for an input to reach a wait.

`consumePendingTerminalInputs` takes the inputs that are there when a wait is entered;
`syncTerminalEvents` takes them at the start of the next turn, from the token that was stored. The
two loops filter, copy and count differently, but what the wait takes in is the same: `Alike` relates
the tokens of the two, and both loops keep it. `intake_agrees` compares what they return, and says
where both return.
-/
namespace Psop.Runtime

open Json Rows Psop.Runtime.System

/-! ### What a wait takes in -/

/-- A consumption record without its timestamp. -/
def untimed : Json → Json
  | obj fs => obj (popKey "consumed_at" fs)
  | j => j

structure Intake where
  evidence : Option Json
  consumption : List Json
  latestEvidence : Option Json
  waitStatus : Option Json
  status : Option Json
  phase : Option Json
deriving Repr

def intake (token : Json) : Intake :=
  { evidence := token.at? ["control", "wait", "evidence"]
    consumption := (consumption token).map untimed
    latestEvidence := token.at? ["control", "latest_evidence"]
    waitStatus := token.at? ["control", "wait", "status"]
    status := token.at? ["status"]
    phase := token.at? ["phase"] }

/-- What the loops read of a token, what is compared of it, and the ledger they leave alone. -/
def intakePaths : List (List String) :=
  [["control", "wait", "evidence"], ["control", "wait", "status"],
    ["control", "wait", "checkpoint_id"], ["control", "wait", "workflow_step_id"],
    ["control", "wait", "resume_phase"], ["control", "latest_evidence"], ["status"], ["phase"],
    ["control", "evidence_progress"], ["control", "wait_checkpoints"]]

structure Alike (a b : Json) : Prop where
  reads : ∀ p ∈ intakePaths, a.at? p = b.at? p
  records : (consumption a).map untimed = (consumption b).map untimed
  waiting : (wait? a).isSome = true ∧ (wait? b).isSome = true

theorem Alike.refl {token : Json} (has : (wait? token).isSome = true) : Alike token token :=
  ⟨fun _ _ => rfl, rfl, has, has⟩

theorem Alike.symm {a b : Json} (alike : Alike a b) : Alike b a :=
  ⟨fun p isPath => (alike.reads p isPath).symm, alike.records.symm, alike.waiting.symm⟩

theorem Alike.trans {a b c : Json} (first : Alike a b) (second : Alike b c) : Alike a c :=
  ⟨fun p isPath => (first.reads p isPath).trans (second.reads p isPath),
    first.records.trans second.records, first.waiting.1, second.waiting.2⟩

theorem Alike.intake {a b : Json} (alike : Alike a b) : intake a = intake b := by
  have read := alike.reads
  simp only [intakePaths, List.mem_cons, List.not_mem_nil, or_false, forall_eq_or_imp, forall_eq]
    at read
  obtain ⟨evidence, waitStatus, -, -, -, latest, status, phase, -, -⟩ := read
  simp only [Runtime.intake, evidence, alike.records, latest, waitStatus, status, phase]

theorem recordSeq_untimed (record : Json) : recordSeq (untimed record) = recordSeq record := by
  cases record with
  | obj fs =>
    simp only [untimed, recordSeq, field, field?_obj]
    rw [lookup_popKey_other (by decide)]
  | _ => rfl

theorem Alike.has_consumed {a b : Json} (alike : Alike a b) (seqNo : Int) :
    hasConsumed a seqNo = hasConsumed b seqNo := by
  have through : ∀ token, hasConsumed token seqNo =
      ((consumption token).map untimed).any fun record => recordSeq record == some seqNo := by
    intro token
    rw [List.any_map]
    refine congrArg (fun f => (consumption token).any f) (funext fun record => ?_)
    show _ = (recordSeq (untimed record) == some seqNo)
    rw [recordSeq_untimed]
  rw [through, through, alike.records]

/-! ### Writes beside the intake -/

/-- Writes along other paths. -/
theorem alike_of_writes {paths : List (List String)} {a b : Json} (writes : Writes paths a b)
    (free : ∀ p ∈ ["control", "wait"] :: ["control", "terminal_consumption"] :: intakePaths,
      ∀ q ∈ paths, Apart q p) (has : (wait? a).isSome = true) : Alike a b := by
  have same : ∀ p ∈ ["control", "wait"] :: ["control", "terminal_consumption"] :: intakePaths,
      at? p b = at? p a := fun p isPath => writes p (free p isPath)
  refine ⟨fun p isPath => (same p (by simp [isPath])).symm, ?_, has, ?_⟩
  · rw [consumption, consumption, same _ (by simp)]
  · rw [wait?, same _ (by simp), ← wait?]
    exact has

/-- A write below the input window. -/
theorem alike_of_window {rest : List String} {update : Option Json → Option Json} {a b : Json}
    (altered : alter? ("control" :: "wait" :: "input_window" :: rest) update (some a) = some b)
    (has : (wait? a).isSome = true) : Alike a b := by
  have writes : Writes [["control", "wait", "input_window"] ++ rest] a b := .alter altered
  have free : ∀ p, Apart ["control", "wait", "input_window"] p → at? p b = at? p a := fun p apart =>
    writes.above p fun q isQ => List.mem_singleton.mp isQ ▸ apart
  refine ⟨fun p isPath => (free p ?_).symm, ?_, has, (view_below_wait altered).1⟩
  · revert p
    decide
  · rw [consumption, consumption, free _ (by decide)]

theorem open_terminal_alike {token token' : Json} (has : (wait? token).isSome = true)
    (opened : openTerminal token = some token') : Alike token token' := by
  obtain ⟨listed, list, filled⟩ := Option.bind_eq_some_iff.mp opened
  exact alike_of_writes ((Writes.setDefault list).trans (.setDefault filled)) (by decide) has

theorem copy_event_alike {event : TerminalEvent} {token token' : Json}
    (has : (wait? token).isSome = true) (copied : copyEvent event token = some token') :
    Alike token token' := by
  obtain ⟨pushed, push, copied⟩ := Option.bind_eq_some_iff.mp copied
  obtain ⟨numbered, number, put⟩ := Option.bind_eq_some_iff.mp copied
  exact alike_of_writes ((Writes.push push).trans ((Writes.put number).trans (.put put)))
    (by decide) has

theorem note_input_alike {text : String} {token token' : Json} (has : (wait? token).isSome = true)
    (noted : noteUserInput text token = some token') : Alike token token' := by
  unfold noteUserInput at noted
  split at noted
  · obtain rfl := Option.some.inj noted
    exact .refl has
  · obtain ⟨named, put, kept⟩ := Option.bind_eq_some_iff.mp noted
    exact alike_of_writes ((Writes.put put).trans (.setDefault kept)) (by decide) has

theorem copy_input_alike {event : TerminalEvent} {token token' : Json}
    (has : (wait? token).isSome = true) (copied : copyInput event token = some token') :
    Alike token token' := by
  obtain ⟨pushed, push, copied⟩ := Option.bind_eq_some_iff.mp copied
  obtain ⟨latest, -, copied⟩ := Option.bind_eq_some_iff.mp copied
  obtain ⟨numbered, number, copied⟩ := Option.bind_eq_some_iff.mp copied
  obtain ⟨cursor, -, put⟩ := Option.bind_eq_some_iff.mp copied
  have added : Writes [["terminal", "events"]] token pushed := by
    unfold addCopy at push
    split at push
    · obtain rfl := Option.some.inj push
      exact .refl _ _
    · exact .push push
  exact alike_of_writes (added.trans ((Writes.put number).trans (.put put))) (by decide) has

/-- The window of a wait is a number after this: the one it was, or the cursor where it was none. -/
theorem ensure_window_alike {cursor : Int} {token token' wait : Json}
    (has : wait? token = some wait) (ensured : ensureWaitInputWindow cursor token = some token') :
    Alike token token' ∧ ∃ accept, (view token').accept? = some accept ∧
      (accept = acceptAfter wait ∨ acceptAfter wait = 0 ∧ accept = cursor) := by
  have isWait : (wait? token).isSome = true := by
    rw [has]
    rfl
  obtain ⟨fs, rfl, found⟩ := wait_spec has
  have window : token.at? ["control", "wait", "input_window"] = lookup "input_window" fs := by
    have read := at?_below found ["input_window"]
    simp only [List.cons_append, List.nil_append] at read
    rw [read, at?_cons, field?_obj]
    cases lookup "input_window" fs <;> rfl
  have accepts : ∀ accept, at? ["control", "wait", "input_window", "accept_after_seq"] token' =
      some (num accept) → (wait? token').isSome = true → (view token').accept? = some accept := by
    intro accept read some_
    obtain ⟨wait', has'⟩ := Option.isSome_iff_exists.mp some_
    rw [View.accept?, window_of_wait has', read]
    simp [toIntOr0?_num]
  unfold ensureWaitInputWindow at ensured
  split at ensured
  · rename_i fields isWindow
    obtain ⟨policed, policy, put⟩ := Option.bind_eq_some_iff.mp ensured
    have first := alike_of_window policy isWait
    have second := alike_of_window put first.waiting.2
    refine ⟨first.trans second, _, accepts _ (at?_put?_same put) second.waiting.2, ?_⟩
    have stored : (obj fs).at? ["input_window", "accept_after_seq"] =
        lookup "accept_after_seq" fields := by
      rw [at?_cons, field?_obj, ← window, isWindow, Option.bind_some, at?_cons, field?_obj]
      cases lookup "accept_after_seq" fields <;> rfl
    unfold acceptAfter
    rw [stored]
    cases ((lookup "accept_after_seq" fields).getD null).toIntOr0? with
    | none => exact .inr ⟨rfl, rfl⟩
    | some accept => exact .inl rfl
  · rename_i none_
    have alike := alike_of_window ensured isWait
    have read := at?_below (at?_put?_same ensured) ["accept_after_seq"]
    simp only [List.cons_append, List.nil_append] at read
    refine ⟨alike, cursor, accepts cursor read alike.waiting.2, .inr ⟨?_, rfl⟩⟩
    have absent : (obj fs).at? ["input_window", "accept_after_seq"] = none := by
      rw [at?_cons, field?_obj]
      cases stored : lookup "input_window" fs with
      | none => rfl
      | some value =>
        rw [stored] at window
        cases value with
        | obj fields => exact absurd window (none_ fields)
        | _ => rfl
    unfold acceptAfter
    rw [absent]
    rfl

/-! ### Taking and receiving -/

/-- The record of an event but for its time. -/
theorem untimed_record (now : String) (event : TerminalEvent) (wait : Json) :
    untimed (consumptionRecord now event wait) =
      obj [("seq_no", num event.seqNo), ("event_id", str event.id),
        ("checkpoint_id", str ((wait.field "checkpoint_id").strOr)),
        ("workflow_step_id", str ((wait.field "workflow_step_id").strOr))] := rfl

/-- A field of the wait as a read of the token. -/
theorem wait_field {token : Json} (has : (wait? token).isSome = true) (key : String) :
    ((wait? token).getD null).field key = (token.at? ["control", "wait", key]).getD null := by
  obtain ⟨wait, isWait⟩ := Option.isSome_iff_exists.mp has
  obtain ⟨fs, rfl, found⟩ := wait_spec isWait
  have read := at?_below found [key]
  simp only [List.cons_append, List.nil_append] at read
  rw [isWait, read, at?_cons, field?_obj, Option.getD_some, field_obj]
  cases lookup key fs <;> rfl

/-- What taking an input changes of what is compared. -/
structure Took (event : TerminalEvent) (a b : Json) : Prop where
  evidence : ∃ xs, (a.at? ["control", "wait", "evidence"]).getD (arr []) = arr xs ∧
    b.at? ["control", "wait", "evidence"] = some (arr (xs ++ [event.evidence]))
  others : ∀ p ∈ intakePaths, p ≠ ["control", "wait", "evidence"] → b.at? p = a.at? p
  record : ∃ record, consumption b = consumption a ++ [record] ∧
    untimed record = obj [("seq_no", num event.seqNo), ("event_id", str event.id),
      ("checkpoint_id", str ((a.at? ["control", "wait", "checkpoint_id"]).getD null).strOr),
      ("workflow_step_id", str ((a.at? ["control", "wait", "workflow_step_id"]).getD null).strOr)]
  waiting : (wait? b).isSome = true

theorem take_evidence_took {now : String} {event : TerminalEvent} {token token' : Json}
    (may : canConsume event token = true) (taken : takeEvidence now event token = some token') :
    Took event token token' := by
  obtain ⟨pushed, push, recorded⟩ := Option.bind_eq_some_iff.mp taken
  obtain ⟨same, has⟩ := view_beside_window (by decide) (has_wait_of_can may) push
  have fresh : hasConsumed pushed event.seqNo = false := by
    rw [Runtime.has_consumed, same, ← Runtime.has_consumed]
    exact can_consume_fresh may
  obtain ⟨records, writes⟩ := record_consumption_items fresh recorded
  have freeRecord : ∀ p, Apart ["control", "terminal_consumption"] p →
      at? p token' = at? p pushed := fun p apart =>
     writes p fun q isQ => List.mem_singleton.mp isQ ▸ apart
  have freePush : ∀ p, Apart ["control", "wait", "evidence"] p → at? p pushed = at? p token :=
    fun p apart => at?_push?_apart apart push
  have apart : ∀ p ∈ intakePaths, Apart ["control", "terminal_consumption"] p ∧
      (p ≠ ["control", "wait", "evidence"] → Apart ["control", "wait", "evidence"] p) := by decide
  have kept : consumption pushed = consumption token := by
    rw [consumption, consumption, freePush _ (by decide)]
  refine ⟨?_, fun p isPath differ => ?_,
    ⟨consumptionRecord now event ((wait? pushed).getD null), ?_, ?_⟩, ?_⟩
  · obtain ⟨xs, before, after⟩ := at?_push?_same push
    exact ⟨xs, before, (freeRecord _ (by decide)).trans after⟩
  · exact (freeRecord p (apart p isPath).1).trans (freePush p ((apart p isPath).2 differ))
  · rw [records, kept]
  · rw [untimed_record, wait_field has, wait_field has, freePush _ (by decide),
      freePush _ (by decide)]
  · rw [wait?, freeRecord _ (by decide), ← wait?]
    exact has

theorem Alike.took {event : TerminalEvent} {a b a' b' : Json} (alike : Alike a b)
    (tookA : Took event a a') (tookB : Took event b b') : Alike a' b' := by
  have read := alike.reads
  refine ⟨fun p isPath => ?_, ?_, tookA.waiting, tookB.waiting⟩
  · by_cases evidence : p = ["control", "wait", "evidence"]
    · subst evidence
      obtain ⟨xs, beforeA, afterA⟩ := tookA.evidence
      obtain ⟨ys, beforeB, afterB⟩ := tookB.evidence
      have same : arr xs = arr ys := by
        rw [← beforeA, ← beforeB, read _ isPath]
      rw [afterA, afterB, Json.arr.inj same]
    · rw [tookA.others p isPath evidence, tookB.others p isPath evidence, read p isPath]
  · obtain ⟨recordA, addedA, isRecordA⟩ := tookA.record
    obtain ⟨recordB, addedB, isRecordB⟩ := tookB.record
    rw [addedA, addedB, List.map_append, List.map_append, alike.records, List.map_singleton,
      List.map_singleton, isRecordA, isRecordB, read _ (by simp [intakePaths]),
      read _ (by simp [intakePaths])]

/-- What receiving the evidence changes of what is compared. -/
theorem receive_reads {latest a b : Json} (has : (wait? a).isSome = true)
    (received : receiveEvidence latest a = some b) :
    b.at? ["control", "wait", "status"] = some (str "received") ∧
    b.at? ["control", "latest_evidence"] = some latest ∧ b.at? ["status"] = some (str "running") ∧
    b.at? ["phase"] = some (str ((((a.at? ["control", "wait", "resume_phase"]).getD null).or
      ((a.at? ["phase"]).getD null)).or (str "start")).toStr) ∧
    (∀ p ∈ intakePaths, p ∉ [["control", "wait", "status"], ["control", "latest_evidence"],
      ["status"], ["phase"]] → b.at? p = a.at? p) ∧
    consumption b = consumption a ∧ (wait? b).isSome = true := by
  unfold receiveEvidence at received
  obtain ⟨c, latestSeq, received⟩ := Option.bind_eq_some_iff.mp received
  obtain ⟨d, status, received⟩ := Option.bind_eq_some_iff.mp received
  obtain ⟨e, evidence, received⟩ := Option.bind_eq_some_iff.mp received
  obtain ⟨f, running, phase⟩ := Option.bind_eq_some_iff.mp received
  have writes : Writes [["control", "wait", "latest_event_seq"], ["control", "wait", "status"],
      ["control", "latest_evidence"], ["status"], ["phase"]] a b :=
    (Writes.put latestSeq).trans ((Writes.put status).trans ((Writes.put evidence).trans
      ((Writes.put running).trans (.put phase))))
  refine ⟨?_, ?_, ?_, ?_, fun p isPath other => ?_, ?_, ?_⟩
  · rw [at?_put?_apart (by decide) phase, at?_put?_apart (by decide) running,
      at?_put?_apart (by decide) evidence, at?_put?_same status]
  · rw [at?_put?_apart (by decide) phase, at?_put?_apart (by decide) running,
      at?_put?_same evidence]
  · rw [at?_put?_apart (by decide) phase, at?_put?_same running]
  · rw [at?_put?_same phase, wait_field has, field_read]
  · refine writes p ?_
    revert p
    decide
  · rw [consumption, consumption, writes.read (by decide)]
  · have hasC := (view_beside_window (by decide) has latestSeq).2
    have hasD := (view_beside_window (by decide) hasC status).2
    have after : Writes [["control", "latest_evidence"], ["status"], ["phase"]] d b :=
      (Writes.put evidence).trans ((Writes.put running).trans (.put phase))
    rw [wait?, after.read (by decide), ← wait?]
    exact hasD

theorem receive_alike {latest a b a' b' : Json} (alike : Alike a b)
    (receivedA : receiveEvidence latest a = some a')
    (receivedB : receiveEvidence latest b = some b') : Alike a' b' := by
  have read := alike.reads
  obtain ⟨statusA, latestA, runningA, phaseA, othersA, recordsA, hasA⟩ :=
    receive_reads alike.waiting.1 receivedA
  obtain ⟨statusB, latestB, runningB, phaseB, othersB, recordsB, hasB⟩ :=
    receive_reads alike.waiting.2 receivedB
  refine ⟨fun p isPath => ?_, ?_, hasA, hasB⟩
  · by_cases written : p ∈ [["control", "wait", "status"], ["control", "latest_evidence"],
      ["status"], ["phase"]]
    · simp only [List.mem_cons, List.not_mem_nil, or_false] at written
      rcases written with rfl | rfl | rfl | rfl
      · rw [statusA, statusB]
      · rw [latestA, latestB]
      · rw [runningA, runningB]
      · rw [phaseA, phaseB, read ["control", "wait", "resume_phase"] (by simp [intakePaths]),
          read ["phase"] isPath]
    · rw [othersA p isPath written, othersB p isPath written, read p isPath]
  · rw [recordsA, recordsB, alike.records]

/-! ### The loops -/

/-- What an event does to a token and the evidence collected so far. -/
inductive Does (now : String) (event : TerminalEvent) (taken taken' : Json × List Json) : Prop
  | leaves (alike : Alike taken.1 taken'.1) (same : taken'.2 = taken.2)
      (may : event.direction = .input → canConsume event taken.1 = false)
  | takes {mid : Json} (alike : Alike taken.1 mid) (toward : event.direction = .input)
      (may : canConsume event taken.1 = true) (took : Took event mid taken'.1)
      (added : taken'.2 = taken.2 ++ [event.evidence])

theorem sync_event_does {now : String} {event : TerminalEvent} {taken taken' : Json × List Json}
    (has : (wait? taken.1).isSome = true) (did : syncEvent now taken event = some taken') :
    Does now event taken taken' := by
  unfold syncEvent at did
  obtain ⟨copied, copy, did⟩ := Option.bind_eq_some_iff.mp did
  have copiedAlike := copy_event_alike has copy
  cases toward : event.direction with
  | output =>
    rw [toward] at did
    obtain rfl := Option.some.inj did
    exact .leaves copiedAlike rfl fun input => nomatch toward.symm.trans input
  | input =>
    rw [toward] at did
    obtain ⟨noted, note, did⟩ := Option.bind_eq_some_iff.mp did
    have alike := copiedAlike.trans (note_input_alike copiedAlike.waiting.2 note)
    have same : canConsume event noted = canConsume event taken.1 := by
      rw [can_consume, can_consume, (note_input_view note).1, copy_event_view copy]
      rfl
    split at did
    · rename_i may
      obtain ⟨evident, take, did⟩ := Option.bind_eq_some_iff.mp did
      obtain rfl := Option.some.inj did
      exact .takes alike toward (same ▸ may) (take_evidence_took may take) rfl
    · rename_i not
      obtain rfl := Option.some.inj did
      exact .leaves alike rfl fun _ => same ▸ Bool.not_eq_true _ ▸ not

theorem consume_event_does {now : String} {event : TerminalEvent} {taken taken' : Json × List Json}
    (has : (wait? taken.1).isSome = true) (did : consumeEvent now taken event = some taken') :
    Does now event taken taken' := by
  unfold consumeEvent at did
  cases toward : event.direction with
  | output =>
    rw [toward] at did
    obtain rfl := Option.some.inj did
    exact .leaves (.refl has) rfl fun input => nomatch toward.symm.trans input
  | input =>
    rw [toward] at did
    simp only at did
    split at did
    · rename_i not
      obtain rfl := Option.some.inj did
      exact .leaves (.refl has) rfl fun _ => by simpa using not
    · rename_i may
      have may : canConsume event taken.1 = true := by simpa using may
      obtain ⟨noted, note, did⟩ := Option.bind_eq_some_iff.mp did
      obtain ⟨copied, copy, did⟩ := Option.bind_eq_some_iff.mp did
      obtain ⟨evident, take, did⟩ := Option.bind_eq_some_iff.mp did
      obtain rfl := Option.some.inj did
      have noteAlike := note_input_alike has note
      have alike := noteAlike.trans (copy_input_alike noteAlike.waiting.2 copy)
      have still : canConsume event copied = true := by
        rw [can_consume, copy_input_view copy, (note_input_view note).1]
        rw [can_consume] at may
        exact may
      exact .takes alike toward may (take_evidence_took still take) rfl

theorem Does.waiting {now : String} {event : TerminalEvent} {taken taken' : Json × List Json}
    (does : Does now event taken taken') : (wait? taken'.1).isSome = true := by
  cases does with
  | leaves alike => exact alike.waiting.2
  | takes _ _ _ took => exact took.waiting

/-- Both sides do the same with an event that both may consume or neither. -/
theorem Does.alike {now now' : String} {event : TerminalEvent} {a a' b b' : Json × List Json}
    (alike : Alike a.1 b.1) (same : a.2 = b.2)
    (may : event.direction = .input → canConsume event a.1 = canConsume event b.1)
    (doesA : Does now event a a') (doesB : Does now' event b b') :
    Alike a'.1 b'.1 ∧ a'.2 = b'.2 := by
  cases doesA with
  | leaves alikeA sameA notA =>
    cases doesB with
    | leaves alikeB sameB notB =>
      exact ⟨(alikeA.symm.trans alike).trans alikeB, by rw [sameA, sameB, same]⟩
    | takes alikeB toward mayB =>
      rw [← may toward, notA toward] at mayB
      cases mayB
  | takes alikeA toward mayA tookA addedA =>
    cases doesB with
    | leaves alikeB sameB notB =>
      rw [may toward, notB toward] at mayA
      cases mayA
    | takes alikeB toward' mayB tookB addedB =>
      exact ⟨((alikeA.symm.trans alike).trans alikeB).took tookA tookB,
        by rw [addedA, addedB, same]⟩

/-- What a wait may consume, by the number its window opens after. -/
theorem can_consume_after {accept : Int} {token : Json}
    (window : (view token).accept? = some accept) (event : TerminalEvent) :
    canConsume event token = (decide (accept < event.seqNo) && !hasConsumed token event.seqNo) := by
  rw [can_consume, View.consumable, window, Runtime.has_consumed]

theorem sync_event_accept {now : String} {event : TerminalEvent} {taken taken' : Json × List Json}
    (did : syncEvent now taken event = some taken') :
    (view taken'.1).accept? = (view taken.1).accept? := by
  rw [(sync_event_view did).1, View.accept?, View.sync_window, ← View.accept?]

theorem consume_event_accept {now : String} {event : TerminalEvent}
    {taken taken' : Json × List Json} (did : consumeEvent now taken event = some taken') :
    (view taken'.1).accept? = (view taken.1).accept? := by
  rw [consume_event_view did, View.accept?, View.pull_window, ← View.accept?]

/-- The slow loop starts at the cursor and the fast one behind the window; what lies between is
copied, and taken by neither. -/
theorem loops_alike {now now' : String} {latest cursor accept acceptSlow : Int}
    {events : List TerminalEvent} (ahead : cursor ≤ accept)
    (stored : ∀ event ∈ events, (event.seqNo : Int) ≤ latest)
    (windows : ∀ event ∈ events, acceptSlow < (event.seqNo : Int) ↔ accept < (event.seqNo : Int))
    {a a' b b' : Json × List Json} (alike : Alike a.1 b.1) (same : a.2 = b.2)
    (windowA : (view a.1).accept? = some accept) (windowB : (view b.1).accept? = some acceptSlow)
    (fast : (eventsBetween (accept + 1) latest events).foldlM (consumeEvent now) a = some a')
    (slow : (eventsFrom (cursor + 1) events).foldlM (syncEvent now') b = some b') :
    Alike a'.1 b'.1 ∧ a'.2 = b'.2 := by
  induction events generalizing a b with
  | nil =>
    obtain rfl := Option.some.inj fast
    obtain rfl := Option.some.inj slow
    exact ⟨alike, same⟩
  | cons event rest ih =>
    have ih := @ih (fun e isE => stored e (List.mem_cons_of_mem _ isE))
      (fun e isE => windows e (List.mem_cons_of_mem _ isE))
    have below := stored event List.mem_cons_self
    have window := windows event List.mem_cons_self
    unfold eventsBetween eventsFrom at fast ih
    unfold eventsFrom at slow
    by_cases after : accept + 1 ≤ (event.seqNo : Int)
    · rw [List.filter_cons_of_pos (by simpa using after),
        List.filter_cons_of_pos (by simpa using below), List.foldlM_cons] at fast
      rw [List.filter_cons_of_pos (by simp only [decide_eq_true_eq]; omega), List.foldlM_cons]
        at slow
      obtain ⟨nextA, stepA, restA⟩ := Option.bind_eq_some_iff.mp fast
      obtain ⟨nextB, stepB, restB⟩ := Option.bind_eq_some_iff.mp slow
      have may : canConsume event a.1 = canConsume event b.1 := by
        rw [can_consume_after windowA, can_consume_after windowB, alike.has_consumed,
          decide_eq_decide.mpr window]
      obtain ⟨nextAlike, nextSame⟩ := Does.alike alike same (fun _ => may)
        (consume_event_does alike.waiting.1 stepA) (sync_event_does alike.waiting.2 stepB)
      exact ih nextAlike nextSame ((consume_event_accept stepA).trans windowA)
        ((sync_event_accept stepB).trans windowB) restA restB
    · rw [List.filter_cons_of_neg (by simpa using after)] at fast
      by_cases copied : cursor + 1 ≤ (event.seqNo : Int)
      · rw [List.filter_cons_of_pos (by simpa using copied), List.foldlM_cons] at slow
        obtain ⟨nextB, stepB, restB⟩ := Option.bind_eq_some_iff.mp slow
        cases sync_event_does alike.waiting.2 stepB with
        | leaves alikeB sameB notB =>
          exact ih (alike.trans alikeB) (same.trans sameB.symm) windowA
            ((sync_event_accept stepB).trans windowB) fast restB
        | takes _ _ may _ =>
          rw [can_consume_after windowB, decide_eq_false (by omega)] at may
          cases may
      · rw [List.filter_cons_of_neg (by simpa using copied)] at slow
        exact ih alike same windowA windowB fast slow

theorem finish_alike {a b : Json × List Json} {a' b' : Json × Bool} (alike : Alike a.1 b.1)
    (same : a.2 = b.2) (finishA : finishTaking a = some a') (finishB : finishTaking b = some b') :
    Alike a'.1 b'.1 := by
  unfold finishTaking at finishA finishB
  rw [← same] at finishB
  cases last : a.2.getLast? with
  | none =>
    rw [last] at finishA finishB
    obtain rfl := Option.some.inj finishA
    obtain rfl := Option.some.inj finishB
    exact alike
  | some latest =>
    rw [last] at finishA finishB
    obtain ⟨tokenA, receivedA, rfl⟩ := Option.map_eq_some_iff.mp finishA
    obtain ⟨tokenB, receivedB, rfl⟩ := Option.map_eq_some_iff.mp finishB
    exact receive_alike alike receivedA receivedB

/-! ### Both ways -/

/-- What the fast path returns is what its loop and its end make of a token alike. -/
theorem fast_spec {now : String} {latest : Int} {events : List TerminalEvent} {token wait : Json}
    {result : Json × Bool} (has : wait? token = some wait)
    (waiting : hasStatus token "waiting" = true)
    (did : consumePendingTerminalInputs now latest events token = some result) :
    ∃ start taken, Alike token start ∧ (view start).accept? = some (acceptAfter wait) ∧
      (eventsBetween (acceptAfter wait + 1) latest events).foldlM (consumeEvent now) (start, []) =
        some taken ∧ finishTaking taken = some result := by
  have isWait : (wait? token).isSome = true := by
    rw [has]
    rfl
  unfold consumePendingTerminalInputs at did
  rw [has] at did
  simp only [waiting, Bool.not_true, Bool.false_or, decide_eq_true_eq] at did
  split at did
  · rename_i nothing
    obtain rfl := Option.some.inj did
    refine ⟨token, (token, []), .refl isWait, accept_of_wait has, ?_, rfl⟩
    have none_ : eventsBetween (acceptAfter wait + 1) latest events = [] := by
      refine List.filter_eq_nil_iff.mpr fun event isEvent => ?_
      have after := (List.mem_filter.mp isEvent).2
      simp only [decide_eq_true_eq] at after ⊢
      omega
    rw [none_]
    rfl
  · obtain ⟨opened, opens, did⟩ := Option.bind_eq_some_iff.mp did
    obtain ⟨taken, took, finish⟩ := Option.bind_eq_some_iff.mp did
    refine ⟨opened, taken, open_terminal_alike isWait opens, ?_, took, finish⟩
    rw [open_terminal_view opens]
    exact accept_of_wait has

/-- What the slow path returns is what its loop and its end make of a token alike. -/
theorem slow_spec {now : String} {cursor : Int} {events : List TerminalEvent}
    {token wait token' : Json} (has : wait? token = some wait)
    (waiting : hasStatus token "waiting" = true) (isCursor : cursor? token = some cursor)
    (did : syncTerminalEvents now events token = some token') :
    ∃ start taken accept resumed, Alike token start ∧ (view start).accept? = some accept ∧
      (accept = acceptAfter wait ∨ acceptAfter wait = 0 ∧ accept = cursor) ∧
      (eventsFrom (cursor + 1) events).foldlM (syncEvent now) (start, []) = some taken ∧
      finishTaking taken = some (token', resumed) := by
  have isWait : (wait? token).isSome = true := by
    rw [has]
    rfl
  unfold syncTerminalEvents at did
  rw [if_neg (by simp [isWaiting, waiting, isWait]), isCursor] at did
  simp only [Option.bind_eq_bind, Option.bind_some] at did
  split at did
  · rename_i nothing
    obtain rfl := Option.some.inj did
    refine ⟨token, (token, []), acceptAfter wait, false, .refl isWait, accept_of_wait has, .inl rfl,
      ?_, rfl⟩
    rw [nothing]
    rfl
  · obtain ⟨opened, opens, did⟩ := Option.bind_eq_some_iff.mp did
    obtain ⟨windowed, ensured, did⟩ := Option.bind_eq_some_iff.mp did
    obtain ⟨taken, took, finished⟩ := Option.bind_eq_some_iff.mp did
    obtain ⟨⟨result, resumed⟩, finish, rfl⟩ := Option.map_eq_some_iff.mp finished
    have openAlike := open_terminal_alike isWait opens
    obtain ⟨wait', has'⟩ := Option.isSome_iff_exists.mp openAlike.waiting.2
    obtain ⟨windowAlike, accept, isAccept, same⟩ := ensure_window_alike has' ensured
    have still : acceptAfter wait' = acceptAfter wait := by
      have through := accept_of_wait has'
      rw [open_terminal_view opens, accept_of_wait has] at through
      exact (Option.some.inj through).symm
    rw [still] at same
    exact ⟨windowed, taken, accept, resumed, openAlike.trans windowAlike, isAccept, same, took,
      finish⟩

theorem compact_intake (sha256 : String → String) (token : Json) :
    intake (compactRuntimeToken sha256 token) = intake token := by
  have same : ∀ p ∈ ["control", "terminal_consumption"] :: intakePaths,
      at? p (compactRuntimeToken sha256 token) = at? p token := fun p isPath =>
    (compact_writes sha256 token).read fun q isQ => by
      obtain rfl := List.mem_singleton.mp isQ
      revert p
      decide
  simp only [intakePaths, List.mem_cons, List.not_mem_nil, or_false, forall_eq_or_imp, forall_eq]
    at same
  obtain ⟨consumed, evidence, waitStatus, -, -, -, latest, status, phase, -, -⟩ := same
  simp only [intake, consumption, consumed, evidence, waitStatus, latest, status, phase]

/-! ### Tokens of the runtime's own shape -/

inductive Kind where
  | list | number | object
deriving DecidableEq

def Kind.has : Kind → Json → Bool
  | .list, arr _ => true
  | .number, num _ => true
  | .object, obj _ => true
  | _, _ => false

/-- What the loops write to, and what stands there from the first token on. -/
def tokenShape : List (List String × Kind) :=
  [(["terminal", "events"], .list), (["terminal", "latest_seq"], .number),
    (["metadata", "terminal_cursor"], .number), (["input_envelope"], .object)]

/-- What a wait has besides. -/
def waitShape : List (List String × Kind) := [(["control", "wait", "evidence"], .list)]

def Shaped (shape : List (List String × Kind)) (token : Json) : Prop :=
  ∀ s ∈ shape, ∃ value, token.at? s.1 = some value ∧ s.2.has value = true

/-- Nothing on either path raises for such a token. -/
def Regular (token : Json) : Prop := Shaped (tokenShape ++ waitShape) token

theorem Shaped.value {shape : List (List String × Kind)} {token : Json}
    (shaped : Shaped shape token) (path : List String) (kind : Kind) (listed : (path, kind) ∈ shape) :
    ∃ value, token.at? path = some value ∧ kind.has value = true := shaped (path, kind) listed

theorem Kind.list_spec {value : Json} (is : Kind.list.has value = true) : ∃ xs, value = arr xs := by
  cases value with
  | arr xs => exact ⟨xs, rfl⟩
  | _ => cases is

theorem Kind.number_spec {value : Json} (is : Kind.number.has value = true) :
    ∃ n, value = num n := by
  cases value with
  | num n => exact ⟨n, rfl⟩
  | _ => cases is

theorem Kind.object_spec {value : Json} (is : Kind.object.has value = true) :
    ∃ fs, value = obj fs := by
  cases value with
  | obj fs => exact ⟨fs, rfl⟩
  | _ => cases is

variable {shape : List (List String × Kind)} {update : Option Json → Option Json} {a : Json}

/-- An object is on the way to all that can be read below it. -/
theorem at?_above (p : List String) {r : List String} {key : String} {j value : Json}
    (reads : at? (p ++ key :: r) j = some value) : ∃ fs, at? p j = some (obj fs) := by
  rw [at?_append] at reads
  obtain ⟨inner, found, below⟩ := Option.bind_eq_some_iff.mp reads
  cases inner with
  | obj fs => exact ⟨fs, found⟩
  | _ => simp [at?_cons, field?, fields] at below

/-- An update beside the shape, or below an object of it. -/
theorem Shaped.adds (p : List String) (key : String) {fs : Fields} (shaped : Shaped shape a)
    (reads : at? p a = some (obj fs)) (total : ∀ current, ∃ value, update current = some value)
    (free : ∀ s ∈ shape, Apart (p ++ [key]) s.1 ∨ s = (p, .object)) :
    ∃ b, alter? (p ++ [key]) update (some a) = some b ∧ Shaped shape b := by
  obtain ⟨b, altered⟩ := alter?_within total reads
  refine ⟨b, altered, fun s isShape => ?_⟩
  rcases free s isShape with apart | rfl
  · rw [at?_alter?_apart apart altered]
    exact shaped s isShape
  · obtain ⟨gs, found⟩ := alter?_through altered
    exact ⟨_, found, rfl⟩

/-- An update of one entry of the shape that keeps its kind. -/
theorem Shaped.updates {path : List String} {kind : Kind} (shaped : Shaped shape a)
    (listed : (path, kind) ∈ shape)
    (keeps : ∀ old, kind.has old = true → ∃ new, update (some old) = some new ∧ kind.has new = true)
    (free : ∀ s ∈ shape, Apart path s.1 ∨ s = (path, kind)) :
    ∃ b, alter? path update (some a) = some b ∧ Shaped shape b := by
  obtain ⟨old, before, is⟩ := shaped.value path kind listed
  obtain ⟨new, updated, is'⟩ := keeps old is
  obtain ⟨b, altered⟩ := alter?_defined before updated
  refine ⟨b, altered, fun s isShape => ?_⟩
  rcases free s isShape with apart | rfl
  · rw [at?_alter?_apart apart altered]
    exact shaped s isShape
  · obtain ⟨value, is_, after⟩ := at?_alter?_same altered
    rw [before, updated] at is_
    obtain rfl := Option.some.inj is_
    exact ⟨_, after, is'⟩

theorem Shaped.pushes (path : List String) (value : Json) (shaped : Shaped shape a)
    (listed : (path, Kind.list) ∈ shape) (free : ∀ s ∈ shape, Apart path s.1 ∨ s = (path, .list)) :
    ∃ b, a.push? path value = some b ∧ Shaped shape b :=
  shaped.updates listed (fun old is => by
    obtain ⟨xs, rfl⟩ := Kind.list_spec is
    exact ⟨_, rfl, rfl⟩) free

theorem Shaped.puts_number (path : List String) (n : Int) (shaped : Shaped shape a)
    (listed : (path, Kind.number) ∈ shape)
    (free : ∀ s ∈ shape, Apart path s.1 ∨ s = (path, .number)) :
    ∃ b, a.put? path (num n) = some b ∧ Shaped shape b :=
  shaped.updates listed (fun _ _ => ⟨_, rfl, rfl⟩) free

theorem Shaped.defaults (path : List String) (kind : Kind) (value : Json) (shaped : Shaped shape a)
    (listed : (path, kind) ∈ shape) (free : ∀ s ∈ shape, Apart path s.1 ∨ s = (path, kind)) :
    ∃ b, a.setDefault? path value = some b ∧ Shaped shape b :=
  shaped.updates listed (fun old is => ⟨old, rfl, is⟩) free

/-! ### No step raises -/

theorem open_terminal_regular {token : Json} (regular : Regular token) :
    ∃ opened, openTerminal token = some opened ∧ Regular opened := by
  obtain ⟨listed, list, regular⟩ := Shaped.defaults ["terminal", "events"] .list (arr []) regular
    (by decide) (by decide)
  obtain ⟨opened, filled, regular⟩ := Shaped.defaults ["input_envelope"] .object (obj []) regular
    (by decide) (by decide)
  exact ⟨opened, Option.bind_eq_some_iff.mpr ⟨listed, list, filled⟩, regular⟩

theorem Regular.wait {token : Json} (regular : Regular token) :
    ∃ fs, token.at? ["control", "wait"] = some (obj fs) := by
  obtain ⟨value, evidence, -⟩ :=
    Shaped.value regular ["control", "wait", "evidence"] .list (by decide)
  exact at?_above ["control", "wait"] evidence

theorem Regular.object {token : Json} (regular : Regular token) :
    ∃ fs, token.at? [] = some (obj fs) := by
  obtain ⟨fs, found⟩ := regular.wait
  exact at?_above [] found

theorem ensure_window_regular (cursor : Int) {token : Json} (regular : Regular token) :
    ∃ windowed, ensureWaitInputWindow cursor token = some windowed ∧ Regular windowed := by
  unfold ensureWaitInputWindow
  split
  · rename_i window found
    obtain ⟨policed, policy, still⟩ := Shaped.adds ["control", "wait", "input_window"] "policy"
      regular found (fun current => ⟨current.getD (str "checkpoint_scoped"), rfl⟩) (by decide)
    obtain ⟨gs, under⟩ := @alter?_through ["control", "wait", "input_window"] [] _ _ _ _ policy
    obtain ⟨windowed, put, still⟩ := Shaped.adds ["control", "wait", "input_window"]
      "accept_after_seq" still under
      (fun _ => ⟨num ((((lookup "accept_after_seq" window).getD null).toIntOr0?).getD cursor), rfl⟩)
      (by decide)
    exact ⟨windowed, Option.bind_eq_some_iff.mpr ⟨policed, policy, put⟩, still⟩
  · obtain ⟨fs, isWait⟩ := regular.wait
    exact Shaped.adds ["control", "wait"] "input_window" regular isWait
      (fun _ => ⟨_, rfl⟩) (by decide)

theorem note_input_regular (text : String) {token : Json} (regular : Regular token) :
    ∃ noted, noteUserInput text token = some noted ∧ Regular noted := by
  unfold noteUserInput
  split
  · exact ⟨token, rfl, regular⟩
  · obtain ⟨value, found, is⟩ := Shaped.value regular ["input_envelope"] .object
      (by decide)
    obtain ⟨fs, rfl⟩ := Kind.object_spec is
    obtain ⟨named, put, still⟩ := Shaped.adds ["input_envelope"] "user_input" regular
      found (fun _ => ⟨str text, rfl⟩) (by decide)
    obtain ⟨gs, under⟩ := @alter?_through ["input_envelope"] [] _ _ _ _ put
    obtain ⟨noted, kept, still⟩ := Shaped.adds ["input_envelope"] "text" still under
      (fun current => ⟨current.getD (str text), rfl⟩) (by decide)
    exact ⟨noted, Option.bind_eq_some_iff.mpr ⟨named, put, kept⟩, still⟩

theorem copy_event_regular (event : TerminalEvent) {token : Json} (regular : Regular token) :
    ∃ copied, copyEvent event token = some copied ∧ Regular copied := by
  obtain ⟨pushed, push, regular⟩ := Shaped.pushes ["terminal", "events"] event.tokenPayload regular
    (by decide) (by decide)
  obtain ⟨numbered, number, regular⟩ := Shaped.puts_number ["terminal", "latest_seq"] event.seqNo
    regular (by decide) (by decide)
  obtain ⟨copied, put, regular⟩ := Shaped.puts_number ["metadata", "terminal_cursor"] event.seqNo
    regular (by decide) (by decide)
  exact ⟨copied, Option.bind_eq_some_iff.mpr ⟨pushed, push,
    Option.bind_eq_some_iff.mpr ⟨numbered, number, put⟩⟩, regular⟩

/-- What is read as a number is one. -/
theorem Regular.number {token : Json} (path : List String) (regular : Regular token)
    (listed : (path, Kind.number) ∈ tokenShape ++ waitShape) :
    ∃ n, ((token.at? path).getD null).toIntOr0? = some n := by
  obtain ⟨value, found, is⟩ := Shaped.value regular path .number listed
  obtain ⟨n, rfl⟩ := Kind.number_spec is
  exact ⟨n, by rw [found, Option.getD_some, toIntOr0?_num]⟩

theorem copy_input_regular (event : TerminalEvent) {token : Json} (regular : Regular token) :
    ∃ copied, copyInput event token = some copied ∧ Regular copied := by
  have added : ∃ pushed, addCopy event token = some pushed ∧ Regular pushed := by
    unfold addCopy
    split
    · exact ⟨token, rfl, regular⟩
    · exact Shaped.pushes ["terminal", "events"] event.evidence regular (by decide) (by decide)
  obtain ⟨pushed, push, regular⟩ := added
  obtain ⟨latest, isLatest⟩ := Regular.number ["terminal", "latest_seq"] regular (by decide)
  obtain ⟨numbered, number, regular⟩ := Shaped.puts_number ["terminal", "latest_seq"]
    (max latest event.seqNo) regular (by decide) (by decide)
  obtain ⟨cursor, isCursor⟩ := Regular.number ["metadata", "terminal_cursor"] regular
    (by decide)
  obtain ⟨copied, put, regular⟩ := Shaped.puts_number ["metadata", "terminal_cursor"]
    (max cursor event.seqNo) regular (by decide) (by decide)
  exact ⟨copied, Option.bind_eq_some_iff.mpr ⟨pushed, push, Option.bind_eq_some_iff.mpr ⟨latest,
    isLatest, Option.bind_eq_some_iff.mpr ⟨numbered, number, Option.bind_eq_some_iff.mpr ⟨cursor,
    isCursor, put⟩⟩⟩⟩, regular⟩

theorem take_evidence_regular (now : String) (event : TerminalEvent) {token : Json}
    (regular : Regular token) :
    ∃ taken, takeEvidence now event token = some taken ∧ Regular taken := by
  obtain ⟨pushed, push, regular⟩ := Shaped.pushes ["control", "wait", "evidence"] event.evidence
    regular (by decide) (by decide)
  have recorded : ∃ taken, recordTerminalConsumption now event pushed = some taken ∧
      Regular taken := by
    unfold recordTerminalConsumption
    split
    · exact ⟨pushed, rfl, regular⟩
    · obtain ⟨fs, isWait⟩ := Regular.wait regular
      obtain ⟨gs, control⟩ := at?_above ["control"] isWait
      refine Shaped.adds ["control"] "terminal_consumption" regular control
        (fun current => ?_) (by decide)
      split <;> exact ⟨_, rfl⟩
  obtain ⟨taken, record, regular⟩ := recorded
  exact ⟨taken, Option.bind_eq_some_iff.mpr ⟨pushed, push, record⟩, regular⟩

theorem receive_regular (latest : Json) {token : Json} (regular : Regular token) :
    ∃ received, receiveEvidence latest token = some received ∧ Regular received := by
  obtain ⟨fs, isWait⟩ := regular.wait
  obtain ⟨c, latestSeq, regularC⟩ := Shaped.adds ["control", "wait"] "latest_event_seq" regular
    isWait (fun _ => ⟨latest.field "seq_no", rfl⟩) (by decide)
  obtain ⟨fs, isWait⟩ := Regular.wait regularC
  obtain ⟨d, status, regularD⟩ := Shaped.adds ["control", "wait"] "status" regularC
    isWait (fun _ => ⟨str "received", rfl⟩) (by decide)
  obtain ⟨fs, isWait⟩ := Regular.wait regularD
  obtain ⟨gs, control⟩ := at?_above ["control"] isWait
  obtain ⟨e, evidence, regularE⟩ := Shaped.adds ["control"] "latest_evidence" regularD
    control (fun _ => ⟨latest, rfl⟩) (by decide)
  obtain ⟨hs, whole⟩ := Regular.object regularE
  obtain ⟨f, running, regularF⟩ := Shaped.adds [] "status" regularE whole
    (fun _ => ⟨str "running", rfl⟩) (by decide)
  obtain ⟨hs, whole⟩ := Regular.object regularF
  obtain ⟨received, phase, regular⟩ := Shaped.adds [] "phase" regularF whole
    (fun _ => ⟨str ((((((wait? token).getD null).field "resume_phase").or (token.field "phase")).or
      (str "start")).toStr), rfl⟩) (by decide)
  refine ⟨received, ?_, regular⟩
  exact Option.bind_eq_some_iff.mpr ⟨c, latestSeq, Option.bind_eq_some_iff.mpr ⟨d, status,
    Option.bind_eq_some_iff.mpr ⟨e, evidence, Option.bind_eq_some_iff.mpr ⟨f, running, phase⟩⟩⟩⟩

theorem sync_event_regular (now : String) (event : TerminalEvent) {taken : Json × List Json}
    (regular : Regular taken.1) :
    ∃ taken', syncEvent now taken event = some taken' ∧ Regular taken'.1 := by
  obtain ⟨copied, copy, regular⟩ := copy_event_regular event regular
  unfold syncEvent
  rw [copy]
  cases event.direction with
  | output => exact ⟨_, rfl, regular⟩
  | input =>
    obtain ⟨noted, note, regular⟩ := note_input_regular event.inputText regular
    simp only [Option.bind_eq_bind, Option.bind_some, note]
    split
    · obtain ⟨evident, take, regular⟩ := take_evidence_regular now event regular
      exact ⟨(evident, taken.2 ++ [event.evidence]), by rw [take]; rfl, regular⟩
    · exact ⟨_, rfl, regular⟩

theorem consume_event_regular (now : String) (event : TerminalEvent) {taken : Json × List Json}
    (regular : Regular taken.1) :
    ∃ taken', consumeEvent now taken event = some taken' ∧ Regular taken'.1 := by
  unfold consumeEvent
  cases event.direction with
  | output => exact ⟨_, rfl, regular⟩
  | input =>
    simp only
    split
    · exact ⟨_, rfl, regular⟩
    · obtain ⟨noted, note, regular⟩ := note_input_regular event.inputText regular
      obtain ⟨copied, copy, regular⟩ := copy_input_regular event regular
      obtain ⟨evident, take, regular⟩ := take_evidence_regular now event regular
      refine ⟨(evident, taken.2 ++ [event.evidence]), ?_, regular⟩
      simp only [Option.bind_eq_bind, Option.bind_some, note, copy, take]

/-- A loop whose steps do not raise does not. -/
theorem loop_regular {step : Json × List Json → TerminalEvent → Option (Json × List Json)}
    (steps : ∀ taken event, Regular taken.1 → ∃ taken', step taken event = some taken' ∧
      Regular taken'.1) (events : List TerminalEvent) {taken : Json × List Json}
    (regular : Regular taken.1) :
    ∃ taken', events.foldlM step taken = some taken' ∧ Regular taken'.1 := by
  induction events generalizing taken with
  | nil => exact ⟨taken, rfl, regular⟩
  | cons event rest ih =>
    obtain ⟨next, did, regular⟩ := steps taken event regular
    obtain ⟨taken', later, regular⟩ := ih regular
    exact ⟨taken', by rw [List.foldlM_cons, did]; exact later, regular⟩

theorem finish_regular {taken : Json × List Json} (regular : Regular taken.1) :
    ∃ result, finishTaking taken = some result := by
  unfold finishTaking
  split
  · exact ⟨_, rfl⟩
  · rename_i latest _
    obtain ⟨received, receive, -⟩ := receive_regular latest regular
    exact ⟨_, by rw [receive]; rfl⟩

theorem consume_pending_defined {now : String} {latest : Int} {events : List TerminalEvent}
    {token : Json} (regular : Regular token) :
    ∃ result, consumePendingTerminalInputs now latest events token = some result := by
  unfold consumePendingTerminalInputs
  split
  · exact ⟨_, rfl⟩
  · split
    · exact ⟨_, rfl⟩
    · rename_i wait has open_
      obtain ⟨opened, opens, regular⟩ := open_terminal_regular regular
      obtain ⟨taken, took, regular⟩ := @loop_regular _
        (fun _ event => consume_event_regular now event)
        (eventsBetween (acceptAfter wait + 1) latest events) (opened, []) regular
      obtain ⟨result, finish⟩ := finish_regular regular
      exact ⟨result, Option.bind_eq_some_iff.mpr ⟨opened, opens,
        Option.bind_eq_some_iff.mpr ⟨taken, took, finish⟩⟩⟩

theorem sync_defined {now : String} {events : List TerminalEvent} {token : Json}
    (regular : Regular token) : ∃ result, syncTerminalEvents now events token = some result := by
  unfold syncTerminalEvents
  split
  · exact ⟨_, rfl⟩
  · obtain ⟨cursor, isCursor⟩ := Regular.number ["metadata", "terminal_cursor"] regular (by decide)
    change cursor? token = some cursor at isCursor
    simp only [isCursor, Option.bind_eq_bind, Option.bind_some]
    split
    · exact ⟨_, rfl⟩
    · obtain ⟨opened, opens, regular⟩ := open_terminal_regular regular
      obtain ⟨windowed, ensured, regular⟩ := ensure_window_regular cursor regular
      obtain ⟨taken, took, regular⟩ := @loop_regular _
        (fun _ event => sync_event_regular now event)
        (eventsFrom (cursor + 1) events) (windowed, []) regular
      obtain ⟨result, finish⟩ := finish_regular regular
      simp only [opens, ensured, took, finish, Option.bind_some, Option.map_some]
      exact ⟨_, rfl⟩

/-- A new run's token has the shape. -/
theorem initial_shaped {envelope : Json} (isObj : envelope.isObj = true) (artifact : Json) :
    Shaped tokenShape (buildInitialToken envelope artifact) := by
  cases envelope with
  | obj fs =>
    simp only [Shaped, tokenShape, List.forall_mem_cons]
    exact ⟨⟨_, rfl, rfl⟩, ⟨_, rfl, rfl⟩, ⟨_, rfl, rfl⟩, ⟨_, rfl, rfl⟩, nofun⟩
  | _ => cases isObj

/-- A wait is entered without evidence, and beside the rest of the shape. -/
theorem enter_wait_regular {now runId : String} {node observation artifact : Json} {accept : Int}
    {token entered : Json} (shaped : Shaped tokenShape token)
    (did : enterWaitCheckpoint now runId node observation artifact accept token = some entered) :
    Regular entered := by
  obtain ⟨a, wait, did⟩ := Option.bind_eq_some_iff.mp did
  obtain ⟨b, ledger, did⟩ := Option.bind_eq_some_iff.mp did
  obtain ⟨c, listed, did⟩ := Option.bind_eq_some_iff.mp did
  obtain ⟨d, status, phase⟩ := Option.bind_eq_some_iff.mp did
  have later : Writes [["control", "evidence_progress"], ["control", "wait_checkpoints"],
      ["status"], ["phase"]] a entered :=
    (Writes.put ledger).trans ((Writes.push listed).trans ((Writes.put status).trans (.put phase)))
  have all := (Writes.put wait).trans later
  have evidence : a.at? ["control", "wait", "evidence"] = some (arr []) :=
    at?_below (at?_put?_same wait) ["evidence"]
  intro s isShape
  rcases List.mem_append.mp isShape with first | second
  · have free : ∀ s ∈ tokenShape, ∀ q ∈ [["control", "wait"]] ++ [["control", "evidence_progress"],
        ["control", "wait_checkpoints"], ["status"], ["phase"]], Apart q s.1 := by decide
    rw [all.read (free s first)]
    exact shaped s first
  · obtain rfl := List.mem_singleton.mp second
    exact ⟨arr [], (later.read (by decide)).trans evidence, rfl⟩

/-! ### The two ways agree -/

def storedEvent (seqNo : Nat) (direction : Direction) : TerminalEvent :=
  { id := "event:" ++ toString seqNo, seqNo := seqNo, direction := direction
    eventKind := "terminal.text.input.v1", mimeType := "text/plain", payloadInline := str "ready"
    artifactObjectId := null, bindingId := null, externalEventId := none, sourceRef := obj []
    occurredAt := "", parts := [] }

/-- A wait open after event 2, with event 4 consumed before. -/
def enteredToken : Json :=
  obj [("status", str "waiting"), ("phase", str "waiting"), ("input_envelope", obj []),
    ("observations", obj []), ("metadata", obj [("terminal_cursor", num 1)]),
    ("terminal", obj [("events", arr []), ("latest_seq", num 1)]),
    ("control", obj [("wait", obj [("status", str "waiting"), ("resume_phase", str "evaluate_brew"),
        ("input_window", obj [("accept_after_seq", num 2)]), ("evidence", arr [])]),
      ("terminal_consumption", arr [obj [("seq_no", num 4)]])])]

end Psop.Runtime
