import Psop.Runtime.Gate

/-!
What a run of a scaffold answers.

A terminal node composes its answer from the token (`terminal_answers`: never an empty one), merges it
into the token and appends it to the stream in the transaction of the snapshot (`terminal_shown`). The
token comes to its end in no other way, so that a run takes its final output from an answer that was shown
(**`success_answered`**).
-/
namespace Psop.Runtime.Chain

open Json Psop.Compiler Psop.Compiler.Valid Psop.Runtime.System Psop.Runner

/-! ### Texts -/

theorem append_ne {first last : String} (nonempty : first ≠ "" ∨ last ≠ "") : first ++ last ≠ "" := by
  intro empty
  have lists := congrArg String.toList empty
  rw [String.toList_append] at lists
  obtain ⟨none, none'⟩ := List.append_eq_nil_iff.mp lists
  exact nonempty.elim (· (String.toList_eq_nil_iff.mp none)) (· (String.toList_eq_nil_iff.mp none'))

/-- A value that counts has a text. -/
theorem truthy_text {j : Json} (truthy : j.truthy = true) : j.toStr ≠ "" := by
  cases j with
  | null => cases truthy
  | str text => exact bne_iff_ne.mp truthy
  | bool b => cases b <;> decide
  | num n =>
    cases n with
    | ofNat n => exact @Nat.repr_ne_empty n
    | negSucc n => exact append_ne (.inl (by decide))
  | arr xs | obj fs => exact append_ne (.inl (append_ne (.inl (by decide))))

theorem or_truthy {a b : Json} (truthy : b.truthy = true) : (a.or b).truthy = true := by
  unfold Json.or
  split
  · assumption
  · exact truthy

/-! ### The answer of a terminal node -/

section Answers

variable {now runId projectionRef : String} {artifact token observation charged : Json}
  {outcome : AgentOutcome}

/-- A terminal node answers with a text. -/
theorem terminal_answers
    (ran : executeNode now runId projectionRef artifact terminalNode token outcome =
      .ok (observation, charged)) :
    ∃ text, text ≠ "" ∧ observation =
      obj [("final_response", str text), ("summary", str "Run 已完成。")] := by
  unfold executeNode at ran
  simp only [show (terminalNode.field "kind").str? = some "terminal" from rfl,
    show actorName (terminalNode.field "actor") = "runtime.terminal" from rfl] at ran
  simp at ran
  obtain ⟨rfl, rfl⟩ := ran
  refine ⟨_, ?_, rfl⟩
  split
  · exact append_ne (.inr (by decide))
  · exact truthy_text (or_truthy rfl)

theorem terminal_merges {a b seen : Json} {text : String}
    (merged : mergeObservation terminalNode
      (obj [("final_response", str text), ("summary", str "Run 已完成。")]) a = some (b, seen)) :
    b.at? ["outputs", "final_response"] = some (str text) ∧ seen.field "final_response" = str text := by
  refine ⟨?_, seen_plain merged rfl⟩
  have path : pathParts "outputs.final_response" = ["outputs", "final_response"] := by decide
  rw [← path]
  refine @merge_observation_stores _ _ _ _ _ _ (str text) _ rfl []
    [setValue "status" "success", setValue "phase" "completed"] rfl rfl ?_ (by decide) (fun m loads => ?_) merged
  · exact List.forall_mem_cons.mpr ⟨value_apart (by decide),
      List.forall_mem_singleton.mpr (value_apart (by decide))⟩
  · exact @observed_plain _ _ (str text) m "final_response" rfl loads rfl (by decide) (by decide) (by decide)

end Answers

/-- An output that was appended. -/
theorem append_output_shown {draft : Rows.EventDraft} {rows rows' : Rows} {event : TerminalEvent}
    (stored : rows.appendTerminalEvent draft = some (rows', event))
    (isOutput : Direction.ofText draft.direction = some .output) :
    event ∈ rows'.events ∧ event.direction = .output ∧ event.payloadInline = draft.payloadInline := by
  obtain ⟨direction, named, rfl, -, rfl⟩ := append_event_spec stored
  obtain rfl := Option.some.inj (isOutput.symm.trans named)
  exact ⟨List.mem_append_right _ (List.mem_singleton_self _), rfl, rfl⟩

/-- The transaction of a terminal node appends its answer. -/
theorem append_step_shown {supply : Supply} {stamp text : String} {node observation token : Json}
    {enabled : List String} {waits : List WaitMark} {rows rows' : Rows}
    (kind : (node.field "kind").str? = some "terminal")
    (answers : observation.field "final_response" = str text) (isText : text ≠ "")
    (stored : appendRuntimeStep supply stamp node observation token enabled waits rows = some rows') :
    ∃ event ∈ rows'.events, event.direction = .output ∧ event.payloadInline = str text := by
  have isOutput : Direction.ofText (finalDraft supply stamp node observation).direction = some .output :=
    show Direction.ofText "output" = _ by decide
  unfold appendRuntimeStep at stored
  simp only at stored
  rw [if_pos ⟨kind, by rw [answers]; exact bne_iff_ne.mpr isText⟩] at stored
  obtain ⟨⟨appended, event⟩, was, rfl⟩ := Option.map_eq_some_iff.mp stored
  obtain ⟨isIn, shows, payload⟩ := append_output_shown was isOutput
  exact ⟨event, isIn, shows, payload.trans (congrArg (fun answer => str (toStr answer)) answers)⟩

/-- A token has an answer that the stream shows. -/
def Shown (events : List TerminalEvent) (token : Json) : Prop :=
  ∃ text, text ≠ "" ∧ token.at? ["outputs", "final_response"] = some (str text) ∧
    ∃ event ∈ events, event.direction = .output ∧ event.payloadInline = str text

theorem Shown.more {events later : List TerminalEvent} {token : Json} (shown : Shown events token)
    (more : events <+: later) : Shown later token := by
  obtain ⟨text, isText, reads, event, isEvent, is⟩ := shown
  exact ⟨text, isText, reads, event, more.subset isEvent, is⟩

theorem Shown.finalOutput {events : List TerminalEvent} {token : Json} (shown : Shown events token) :
    (token.getPath "outputs.final_response").strOr ≠ "" ∧ ∃ event ∈ events,
      event.direction = .output ∧
        event.payloadInline = str (token.getPath "outputs.final_response").strOr := by
  obtain ⟨text, isText, reads, event, isEvent, is⟩ := shown
  have path : pathParts "outputs.final_response" = ["outputs", "final_response"] := by decide
  have same : (token.getPath "outputs.final_response").strOr = text := by
    rw [getPath, if_neg (by decide), path, reads, Option.getD_some, str_or_str]
  rw [same]
  exact ⟨isText, event, isEvent, is⟩

section Steps

variable {platform : Platform} {s t : System} {e : Event} {first : ScaffoldStep}
  {steps : List ScaffoldStep}

/-- Only the terminal node brings a running token to its end. -/
theorem node_is_terminal {attempt : Nat} {turn : Turn} {outcome : AgentOutcome} {supply : Supply}
    {node observation charged merged : Json} {shown : Rows} (ok : OnStage first steps s)
    (commits : Commits platform s attempt turn outcome supply node observation charged merged shown)
    (goesOn : (interacted platform s turn node observation merged).outcome = .ok false)
    (ends : Stands "success" "completed" (interacted platform s turn node observation merged).token) :
    node = terminalNode := by
  obtain ⟨nodes, passed, runs, -, -⟩ := ok.turns _ _ commits.selected.looping
  obtain ⟨later, after, still, onward⟩ := (node_leaves ok.scaffolded runs commits).goes goesOn
  have isLast := onward.completed still ends
  have long : ∀ {before rest : List ScaffoldStep} {step : ScaffoldStep}, steps = before ++ step :: rest →
      steps.length = before.length + (rest.length + 1) := by
    rintro before rest step rfl
    rw [List.length_append, List.length_cons]
  cases runs with
  | terminal stands => exact selected_is_node commits.selected ok.scaffolded terminal_mem stands.phase
  | instruct split | evaluate split =>
    have := long split
    omega
  | start | verify | completed | aborted => omega

/-- A node that goes on to the end has shown its answer. -/
theorem terminal_shown {attempt : Nat} {turn : Turn} {outcome : AgentOutcome} {supply : Supply}
    {node observation charged merged : Json} {shown rows : Rows} {enabled : List String}
    {waits : List WaitMark} (ok : OnStage first steps s)
    (commits : Commits platform s attempt turn outcome supply node observation charged merged shown)
    (goesOn : (interacted platform s turn node observation merged).outcome = .ok false)
    (stored : appendRuntimeStep supply (platform.isoformat s.now) node observation
      (interacted platform s turn node observation merged).token enabled waits shown = some rows)
    (ends : Stands "success" "completed" (interacted platform s turn node observation merged).token) :
    Shown rows.events (interacted platform s turn node observation merged).token := by
  obtain rfl := node_is_terminal ok commits goesOn ends
  obtain ⟨token, -⟩ : (interacted platform s turn terminalNode observation merged).token = merged ∧
      (interacted platform s turn terminalNode observation merged).outcome = .ok false :=
    apply_passing rfl rfl rfl
  obtain ⟨made, ran, merge⟩ := commits.merge
  obtain ⟨text, isText, rfl⟩ := terminal_answers ran
  obtain ⟨merges, answers⟩ := terminal_merges merge
  rw [token]
  exact ⟨text, isText, merges, append_step_shown rfl answers isText stored⟩

/-! ### Over a run -/

/-- What a run of a scaffold has shown: the answer of every token at its end, and its final output. -/
structure OnAnswer (s : System) : Prop where
  stored : ∀ snapshot ∈ s.rows.snapshots, Stands "success" "completed" snapshot.token →
    Shown s.rows.events snapshot.token
  turns : ∀ attempt turn, s.attempts attempt = .looping turn → Stands "success" "completed" turn.token →
    Shown s.rows.events turn.token
  won : s.rows.run.status = .succeeded → s.rows.run.finalOutput ≠ "" ∧ ∃ event ∈ s.rows.events,
    event.direction = .output ∧ event.payloadInline = str s.rows.run.finalOutput

/-- A token that waits, or was cancelled, has not come to its end. -/
theorem not_ended {token : Json} {status : String} (has : hasStatus token status = true)
    (other : status ≠ "success") : ¬ Stands "success" "completed" token := by
  intro stands
  rw [stands.is] at has
  exact other (beq_iff_eq.mp has).symm

/-- A snapshot at the end was stored before, or has shown its answer. -/
theorem move_stored (ok : OnStage first steps s) (move : Move platform s e t) :
    ∀ snapshot ∈ t.rows.snapshots, Stands "success" "completed" snapshot.token →
      snapshot ∈ s.rows.snapshots ∨ Shown t.rows.events snapshot.token := by
  have added : ∀ {rows : Rows} {new : Snapshot}, rows.snapshots = s.rows.snapshots ++ [new] →
      (Stands "success" "completed" new.token → Shown rows.events new.token) →
      ∀ snapshot ∈ rows.snapshots, Stands "success" "completed" snapshot.token →
        snapshot ∈ s.rows.snapshots ∨ Shown rows.events snapshot.token := by
    intro rows new same isShown snapshot isIn ends
    rw [same] at isIn
    rcases List.mem_append.mp isIn with old | isNew
    · exact .inl old
    · obtain rfl := List.mem_singleton.mp isNew
      exact .inr (isShown ends)
  have kept : ∀ {rows : Rows}, rows.snapshots = s.rows.snapshots →
      ∀ snapshot ∈ rows.snapshots, Stands "success" "completed" snapshot.token →
        snapshot ∈ s.rows.snapshots ∨ Shown rows.events snapshot.token :=
    fun same snapshot isIn _ => .inl (same ▸ isIn)
  cases move with
  | tick | repeated | claimed | renewed | released | stopped | settled | begun =>
    exact fun _ isIn _ => .inl isIn
  | @appended _ draft rows _ _ _ _ stored =>
    exact kept ((woken_snapshots s.now draft rows).trans (append_event_only stored).snapshots)
  | cancelled _ snapped =>
    unfold appendCancelSnapshot at snapped
    split at snapped
    · cases snapped
      exact fun _ isIn _ => .inl isIn
    · obtain ⟨token, did, rfl⟩ := Option.map_eq_some_iff.mp snapped
      exact added rfl fun ends => absurd ends (not_ended (cancel_token_status did) (by decide))
  | exhausted _ _ _ _ finalized => exact kept (finalize_keeps finalized).1
  | rested _ _ _ _ _ waited => exact kept (finish_turn_keeps waited).1
  | recovered fails recoverable _ _ recovered =>
    obtain ⟨new, event, adds, -, recovers⟩ := recover_turn_adds recovered
    obtain ⟨passed, awaits, behind⟩ := Fails.awaits ok fails recoverable
    obtain ⟨before, step, rest, split, le, awaits⟩ := awaits
    obtain ⟨stands, -⟩ := recovered_waits awaits recovers
    refine added ((fails_keeps_snapshots fails).adds adds).1 fun ends => ?_
    exact absurd ends (not_ended ((stands.is _).trans rfl) (show "waiting" ≠ "success" by decide))
  | failed fails _ failed =>
    exact kept ((fails_keeps_snapshots fails).trans (fail_turn_keeps failed)).1
  | advanced commits goesOn stored =>
    obtain ⟨new, snapshots, -, isToken⟩ := Commits.snapshot commits stored
    refine added snapshots ?_
    rw [isToken]
    exact terminal_shown ok commits goesOn stored
  | waited commits waits stored waited =>
    obtain ⟨new, snapshots, selected, isToken⟩ := Commits.snapshot commits stored
    refine added ((finish_turn_keeps waited).1.trans snapshots) fun ends => ?_
    obtain ⟨nodes, passed, runs, -⟩ := ok.turns _ _ commits.selected.looping
    obtain ⟨before, -, waits, -⟩ := (node_leaves ok.scaffolded runs commits).waits waits
    rw [isToken] at ends
    exact absurd ends (not_ended waits.asleep (by decide))
  | aborted _ _ _ exited => exact kept (finish_turn_keeps exited).1
  | succeeded _ _ _ exited => exact kept (finish_turn_keeps exited).1
  | halted _ _ _ exited => exact kept (finish_turn_keeps exited).1

/-- A token of a turn that has come to its end has shown its answer. -/
theorem move_turns_shown (ok : OnStage first steps s) (shown : OnAnswer s) (move : Move platform s e t) :
    ∀ attempt turn, t.attempts attempt = .looping turn → Stands "success" "completed" turn.token →
      Shown t.rows.events turn.token := by
  have more := (move_grows move).events
  have old : ∀ {attempt turn}, s.attempts attempt = .looping turn →
      Stands "success" "completed" turn.token → Shown t.rows.events turn.token :=
    fun looping ends => (shown.turns _ _ looping ends).more more
  cases move with
  | tick | repeated | appended | cancelled | renewed | released | exhausted => exact fun _ _ => old
  | stopped | claimed => exact fun _ _ looping => old (turns_of_set looping (by simp))
  | settled | rested | recovered | failed | waited | aborted | succeeded | halted =>
    exact fun _ _ looping => old (ended_turns _ _ looping)
  | @begun attempt _ _ snapshot _ synced _ _ unfinished last _ sync awake =>
    intro other turn looping
    rcases looping_of_set looping with new | before
    · obtain rfl := Attempt.looping.inj new
      intro ends
      have isLast : snapshot ∈ s.rows.snapshots := List.mem_of_getLast? last
      cases ok.lastStored unfinished last with
      | runs runs =>
        have reads := compact_writes platform.sha256 snapshot.token
        have same := (runs.of_reads (compact_reads platform.sha256 _)).synced sync
        rw [show (loopTurn platform snapshot _ synced _ _).token = synced from rfl, same] at ends ⊢
        have stands : Stands "success" "completed" snapshot.token :=
          ⟨(reads.read (by decide)).symm.trans ends.status, (reads.read (by decide)).symm.trans ends.phase⟩
        obtain ⟨text, isText, answers, shows⟩ := shown.stored snapshot isLast stands
        exact ⟨text, isText, (reads.read (by decide)).trans answers, shows⟩
      | waits waits =>
        obtain ⟨le, runs⟩ := (waits.of_reads (compact_reads platform.sha256 _)).synced sync awake
        have isLast := runs.last ends
        omega
    · exact old before
  | advanced commits goesOn stored =>
    intro other turn looping
    rcases looping_of_set looping with new | before
    · obtain rfl := Attempt.looping.inj new
      exact terminal_shown ok commits goesOn stored
    · exact old before

/-- **A step keeps what the run has shown.** -/
theorem move_on_answer (ok : OnStage first steps s) (shown : OnAnswer s) (move : Move platform s e t) :
    OnAnswer t := by
  have more := (move_grows move).events
  refine ⟨fun snapshot isIn ends => ?_, move_turns_shown ok shown move, fun succeeded => ?_⟩
  · rcases move_stored ok move snapshot isIn ends with old | isShown
    · exact (shown.stored snapshot old ends).more more
    · exact isShown
  · rcases move_won move succeeded with ⟨was, same⟩ | ⟨attempt, turn, looping, halts, same⟩
    · rw [same]
      obtain ⟨isText, event, isEvent, is⟩ := shown.won was
      exact ⟨isText, event, more.subset isEvent, is⟩
    · rw [same]
      obtain ⟨nodes, passed, runs, -⟩ := ok.turns _ _ looping
      have ends : Stands "success" "completed" turn.token := runs.ended ok.scaffolded halts
      exact ((shown.turns _ _ looping ends).more more).finalOutput

end Steps

theorem created_on_answer (artifact : Json) (runId : String) (maxAttempts now : Nat) :
    OnAnswer (created artifact runId maxAttempts now) := by
  refine ⟨fun snapshot isIn ends => ?_, fun _ _ looping => ?_, fun succeeded => ?_⟩
  · rw [List.mem_singleton.mp isIn] at ends
    exact absurd (Json.str.inj (Option.some.inj ends.status)) (by decide)
  · cases looping
  · cases succeeded

/-- **The answer of a run**: the final output of a run that succeeded is a text, and an output of its
stream shows it. -/
theorem success_answered {platform : Platform} {t : System} {steps : List ScaffoldStep} {raw : List Json}
    {input : ScaffoldInput} {artifact : Json} {runId : String} {maxAttempts now : Nat}
    (of : ScaffoldOf raw input steps artifact)
    (run : Run (step platform) anyStep (created artifact runId maxAttempts now) t)
    (succeeded : t.rows.run.status = .succeeded) :
    t.rows.run.finalOutput ≠ "" ∧ ∃ event ∈ t.rows.events,
      event.direction = .output ∧ event.payloadInline = str t.rows.run.finalOutput := by
  obtain ⟨first, scaffolded⟩ := of.scaffolded
  have isOnAnswer : OnStage first steps t ∧ OnAnswer t := by
    refine @Run.invariant _ _ _ _ (fun s => OnStage first steps s ∧ OnAnswer s) ?_ _ _ run ?_
    · rintro _ _ _ ⟨ok, shown⟩ - stepped
      exact ⟨move_on_stage ok (step_move stepped), move_on_answer ok shown (step_move stepped)⟩
    · exact ⟨created_on_stage scaffolded runId maxAttempts now, created_on_answer ..⟩
  exact isOnAnswer.2.won succeeded

/-- The run that was served shows its answer. -/
theorem success_answered_brewing :
    ∃ artifact u, ScaffoldOf [submittedStep "brew"] brewInput [brewStep] artifact ∧
      Run (step plainPlatform) anyStep (created artifact "run-1" 3 0) u ∧
      u.rows.run.status = .succeeded ∧ u.rows.run.finalOutput ≠ "" ∧ ∃ event ∈ u.rows.events,
        event.direction = .output ∧ event.payloadInline = str u.rows.run.finalOutput := by
  obtain ⟨artifact, t, u, -, -, of, first, -, -, -, later, succeeded⟩ := brew_run
  have run := first.trans later
  exact ⟨artifact, u, of, run, succeeded, success_answered of run succeeded⟩

end Psop.Runtime.Chain
