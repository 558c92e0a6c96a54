import Psop.Runtime.Chain

/-!
Where the tokens of a scaffold stand.

Between two inputs a token goes from instruction to evaluation and on to the next step, and never back:
`Runs` says where a running token stands and counts the nodes on the way there. A turn begins at the
start or with an input for the step that waits, so the nodes it has run are never more than the nodes
before the one it stands at, and the step bound of a scaffold leaves room for all of them
(`Runs.bounded`). `Waits.synced` is the step a turn begins with, **`node_leaves`** the one of a node.
-/
namespace Psop.Runtime.Chain

open Json Psop.Compiler Psop.Compiler.Valid Psop.Runtime.System Psop.Runner

/-! ### Where a token stands -/

/-- The status and the phase of a token. -/
structure Stands (status phase : String) (token : Json) : Prop where
  status : token.at? ["status"] = some (str status)
  phase : token.at? ["phase"] = some (str phase)

/-- The wait of a token is the one of a step. -/
structure Awaits (step : ScaffoldStep) (token : Json) : Prop where
  resumes : token.at? ["control", "wait", "resume_phase"] = some (str (evaluateId step.id))
  named : token.at? ["control", "wait", "workflow_step_id"] = some (str step.id)

/-- The last wait of a token that has passed some steps. -/
def Behind (before : List ScaffoldStep) (token : Json) : Prop :=
  match before.getLast? with
  | none => wait? token = none
  | some step => Awaits step token

/-- A token waits, or waited last, for a step behind at most so many others. -/
def AwaitsWithin (steps : List ScaffoldStep) (passed : Nat) (token : Json) : Prop :=
  ∃ (before : List ScaffoldStep) (step : ScaffoldStep) (rest : List ScaffoldStep),
    steps = before ++ step :: rest ∧ before.length ≤ passed ∧ Awaits step token

/-- For the step behind just so many. -/
def AwaitsAt (steps : List ScaffoldStep) (passed : Nat) (token : Json) : Prop :=
  ∃ (before : List ScaffoldStep) (step : ScaffoldStep) (rest : List ScaffoldStep),
    steps = before ++ step :: rest ∧ before.length = passed ∧ Awaits step token

/-- Where a running token stands: how many nodes come before, and how many steps. -/
inductive Runs (steps : List ScaffoldStep) (token : Json) : Nat → Nat → Prop
  | start (stands : Stands "running" "start" token) (behind : Behind [] token) : Runs steps token 0 0
  | instruct {before : List ScaffoldStep} {step : ScaffoldStep} {rest : List ScaffoldStep}
      (split : steps = before ++ step :: rest)
      (stands : Stands "running" (instructId step.id) token) (behind : Behind before token) :
      Runs steps token (2 * before.length + 1) before.length
  | evaluate {before : List ScaffoldStep} {step : ScaffoldStep} {rest : List ScaffoldStep}
      (split : steps = before ++ step :: rest)
      (stands : Stands "running" (evaluateId step.id) token) (awaits : Awaits step token) :
      Runs steps token (2 * before.length + 2) before.length
  | verify {step : ScaffoldStep} (last : steps.getLast? = some step)
      (stands : Stands "running" "final_verify" token) (awaits : Awaits step token) :
      Runs steps token (2 * steps.length + 1) steps.length
  | terminal {passed : Nat} (stands : Stands "running" "terminal" token)
      (awaits : AwaitsWithin steps passed token) : Runs steps token (2 * steps.length + 2) passed
  | completed {passed : Nat} (stands : Stands "success" "completed" token)
      (awaits : AwaitsWithin steps passed token) : Runs steps token (2 * steps.length + 3) passed
  | aborted {passed : Nat} (stands : Stands "aborted" "aborted" token)
      (awaits : AwaitsWithin steps passed token) : Runs steps token (2 * steps.length + 4) passed

/-- A token that waits for a step. -/
inductive Waits (steps : List ScaffoldStep) (token : Json) : Nat → Prop
  | held {before : List ScaffoldStep} {step : ScaffoldStep} {rest : List ScaffoldStep}
      (split : steps = before ++ step :: rest) (stands : Stands "waiting" "waiting" token)
      (awaits : Awaits step token) : Waits steps token before.length

/-- A token as a run stores it. -/
def Staged (steps : List ScaffoldStep) (passed : Nat) (token : Json) : Prop :=
  (∃ nodes, Runs steps token nodes passed) ∨ Waits steps token passed

/-- What all this is read along. -/
def stagePaths : List (List String) :=
  [["status"], ["phase"], ["control", "wait", "resume_phase"], ["control", "wait", "workflow_step_id"]]

section Tokens

variable {steps : List ScaffoldStep} {step : ScaffoldStep} {a b : Json}

theorem Stands.is {status phase : String} (stands : Stands status phase a) (word : String) :
    hasStatus a word = (status == word) := by
  rw [hasStatus, field_read, stands.status]
  rfl

theorem Stands.of_reads {status phase : String} (stands : Stands status phase a)
    (isStatus : b.at? ["status"] = a.at? ["status"]) (isPhase : b.at? ["phase"] = a.at? ["phase"]) :
    Stands status phase b :=
  ⟨isStatus.trans stands.status, isPhase.trans stands.phase⟩

theorem Awaits.of_reads (awaits : Awaits step a)
    (reads : ∀ p ∈ stagePaths, b.at? p = a.at? p) : Awaits step b :=
  ⟨(reads _ (by simp [stagePaths])).trans awaits.resumes,
    (reads _ (by simp [stagePaths])).trans awaits.named⟩

/-- Writes beside the entries of the wait. -/
theorem Awaits.of_writes {paths : List (List String)} (awaits : Awaits step a)
    (writes : Writes paths a b)
    (free : ∀ p ∈ [["control", "wait", "resume_phase"], ["control", "wait", "workflow_step_id"]],
      ∀ q ∈ paths, Json.Apart q p) : Awaits step b :=
  ⟨(writes.read (free _ (by simp))).trans awaits.resumes,
    (writes.read (free _ (by simp))).trans awaits.named⟩

theorem Awaits.has (awaits : Awaits step a) : (wait? a).isSome = true := by
  obtain ⟨fs, reads⟩ := at?_above ["control", "wait"] awaits.resumes
  rw [wait?, reads]
  rfl

theorem Behind.of_reads {before : List ScaffoldStep} (behind : Behind before a)
    (reads : ∀ p ∈ ["control", "wait"] :: stagePaths, b.at? p = a.at? p) : Behind before b := by
  rw [Behind] at behind ⊢
  cases last : before.getLast? with
  | none =>
    rw [last] at behind
    rw [wait?, reads _ List.mem_cons_self]
    exact behind
  | some step =>
    rw [last] at behind
    exact behind.of_reads fun p isPath => reads p (List.mem_cons_of_mem _ isPath)

theorem AwaitsWithin.of_reads {passed : Nat} (awaits : AwaitsWithin steps passed a)
    (reads : ∀ p ∈ stagePaths, b.at? p = a.at? p) : AwaitsWithin steps passed b := by
  obtain ⟨before, step, rest, split, within, awaits⟩ := awaits
  exact ⟨before, step, rest, split, within, awaits.of_reads reads⟩

/-- A running token reads as one that stands where it does. -/
theorem Runs.of_reads {nodes passed : Nat} (runs : Runs steps a nodes passed)
    (reads : ∀ p ∈ ["control", "wait"] :: stagePaths, b.at? p = a.at? p) :
    Runs steps b nodes passed := by
  have below : ∀ p ∈ stagePaths, b.at? p = a.at? p := fun p isPath =>
    reads p (List.mem_cons_of_mem _ isPath)
  have isStatus := below ["status"] (by simp [stagePaths])
  have isPhase := below ["phase"] (by simp [stagePaths])
  cases runs with
  | start stands behind => exact .start (stands.of_reads isStatus isPhase) (behind.of_reads reads)
  | instruct split stands behind =>
    exact .instruct split (stands.of_reads isStatus isPhase) (behind.of_reads reads)
  | evaluate split stands awaits =>
    exact .evaluate split (stands.of_reads isStatus isPhase) (awaits.of_reads below)
  | verify last stands awaits =>
    exact .verify last (stands.of_reads isStatus isPhase) (awaits.of_reads below)
  | terminal stands awaits =>
    exact .terminal (stands.of_reads isStatus isPhase) (awaits.of_reads below)
  | completed stands awaits =>
    exact .completed (stands.of_reads isStatus isPhase) (awaits.of_reads below)
  | aborted stands awaits =>
    exact .aborted (stands.of_reads isStatus isPhase) (awaits.of_reads below)

theorem Waits.of_reads {passed : Nat} (waits : Waits steps a passed)
    (reads : ∀ p ∈ ["control", "wait"] :: stagePaths, b.at? p = a.at? p) : Waits steps b passed := by
  have below : ∀ p ∈ stagePaths, b.at? p = a.at? p := fun p isPath =>
    reads p (List.mem_cons_of_mem _ isPath)
  cases waits with
  | held split stands awaits =>
    exact .held split (stands.of_reads (below _ (by simp [stagePaths])) (below _ (by simp [stagePaths])))
      (awaits.of_reads below)

theorem Staged.of_reads {passed : Nat} (staged : Staged steps passed a)
    (reads : ∀ p ∈ ["control", "wait"] :: stagePaths, b.at? p = a.at? p) : Staged steps passed b := by
  rcases staged with ⟨nodes, runs⟩ | waits
  · exact .inl ⟨nodes, runs.of_reads reads⟩
  · exact .inr (waits.of_reads reads)

/-- The last of the steps that were passed. -/
theorem Behind.within {before rest : List ScaffoldStep} (split : steps = before ++ rest)
    (behind : Behind before a) (has : (wait? a).isSome = true) :
    AwaitsWithin steps before.length a := by
  rw [Behind] at behind
  cases last : before.getLast? with
  | none =>
    rw [last] at behind
    rw [behind] at has
    cases has
  | some step =>
    rw [last] at behind
    obtain ⟨earlier, rfl⟩ := List.getLast?_eq_some_iff.mp last
    refine ⟨earlier, step, rest, by rw [split, List.append_assoc]; rfl, ?_, behind⟩
    rw [List.length_append]
    omega

/-- A wait of a running token is the one of a step it came to. -/
theorem Runs.awaits {nodes passed : Nat} (runs : Runs steps a nodes passed)
    (has : (wait? a).isSome = true) : AwaitsWithin steps passed a := by
  cases runs with
  | start _ behind => exact behind.within (List.nil_append _).symm has
  | instruct split _ behind => exact behind.within split has
  | evaluate split _ awaits => exact ⟨_, _, _, split, le_refl _, awaits⟩
  | verify last _ awaits =>
    obtain ⟨earlier, rfl⟩ := List.getLast?_eq_some_iff.mp last
    exact ⟨earlier, _, [], rfl, by rw [List.length_append]; omega, awaits⟩
  | terminal _ awaits | completed _ awaits | aborted _ awaits => exact awaits

theorem Staged.awaits {passed : Nat} (staged : Staged steps passed a) (has : (wait? a).isSome = true) :
    AwaitsWithin steps passed a := by
  rcases staged with ⟨_, runs⟩ | waits
  · exact runs.awaits has
  · cases waits with
    | held split _ awaits => exact ⟨_, _, _, split, le_refl _, awaits⟩

/-- A running token does not wait. -/
theorem Runs.awake {nodes passed : Nat} (runs : Runs steps a nodes passed) :
    hasStatus a "waiting" = false := by
  cases runs with
  | start stands | instruct _ stands | evaluate _ stands | verify _ stands | terminal stands
  | completed stands | aborted stands =>
    rw [stands.is]
    rfl

theorem Runs.stands {nodes passed : Nat} (runs : Runs steps a nodes passed) :
    ∃ status phase, Stands status phase a := by
  cases runs with
  | start stands | instruct _ stands | evaluate _ stands | verify _ stands | terminal stands
  | completed stands | aborted stands => exact ⟨_, _, stands⟩

/-- It was not cancelled. -/
theorem Runs.uncancelled {nodes passed : Nat} (runs : Runs steps a nodes passed) :
    hasStatus a "cancelled" = false := by
  cases runs with
  | start stands | instruct _ stands | evaluate _ stands | verify _ stands | terminal stands
  | completed stands | aborted stands =>
    rw [stands.is]
    rfl

theorem Waits.asleep {passed : Nat} (waits : Waits steps a passed) : hasStatus a "waiting" = true := by
  cases waits with
  | held _ stands =>
    rw [stands.is]
    rfl

theorem Runs.bounded {nodes passed : Nat} (runs : Runs steps a nodes passed) :
    nodes ≤ 2 * steps.length + 4 := by
  cases runs with
  | start => omega
  | instruct split | evaluate split =>
    rw [split, List.length_append, List.length_cons]
    omega
  | verify | terminal | completed | aborted => omega

end Tokens

/-! ### Taking inputs in -/

section Intake

variable {step : ScaffoldStep} {a b : Json}

/-- The entries of the stages stay, with a wait. -/
structure Stays (a b : Json) : Prop where
  reads : ∀ p ∈ stagePaths, b.at? p = a.at? p
  has : (wait? b).isSome = true

theorem stagePaths_read : ∀ p ∈ stagePaths, p ∈ intakePaths ∧ p ≠ ["control", "wait", "evidence"] := by
  decide

theorem does_stays {now : String} {event : TerminalEvent} {taken taken' : Json × List Json}
    (does : Does now event taken taken') : Stays taken.1 taken'.1 := by
  refine ⟨fun p isPath => ?_, does.waiting⟩
  obtain ⟨isRead, other⟩ := stagePaths_read p isPath
  cases does with
  | leaves alike => exact (alike.reads p isRead).symm
  | takes alike _ _ took => exact (took.others p isRead other).trans (alike.reads p isRead).symm

theorem loop_stays {now : String}
    {take : Json × List Json → TerminalEvent → Option (Json × List Json)}
    (does : ∀ {event taken taken'}, (wait? taken.1).isSome = true → take taken event = some taken' →
      Does now event taken taken') {read : List TerminalEvent} {taken taken' : Json × List Json}
    (has : (wait? taken.1).isSome = true) (took : read.foldlM take taken = some taken') :
    Stays taken.1 taken'.1 := by
  induction read generalizing taken with
  | nil =>
    obtain rfl : taken = taken' := Option.some.inj took
    exact ⟨fun _ _ => rfl, has⟩
  | cons event rest ih =>
    rw [List.foldlM_cons] at took
    obtain ⟨next, first, later⟩ := Option.bind_eq_some_iff.mp took
    have one := does_stays (does has first)
    have more := ih one.has later
    exact ⟨fun p isPath => (more.reads p isPath).trans (one.reads p isPath), more.has⟩

/-- Inputs taken in at the wait of a step: none of them, or the step is evaluated. -/
def Answered (step : ScaffoldStep) (token : Json) (resumed : Bool) : Prop :=
  Stands (if resumed then "running" else "waiting") (if resumed then evaluateId step.id else "waiting")
    token ∧ Awaits step token

theorem receive_answered {latest : Json} (awaits : Awaits step a)
    (received : receiveEvidence latest a = some b) : Answered step b true := by
  obtain ⟨-, -, running, phase, others, -, -⟩ := receive_reads awaits.has received
  have truthy : (str (evaluateId step.id)).truthy = true := by
    rw [truthy_str, bne_iff_ne]
    exact ne_of_head (by rw [evaluateId_head]; decide)
  refine ⟨⟨running, ?_⟩, (others _ (by decide) (by decide)).trans awaits.resumes,
    (others _ (by decide) (by decide)).trans awaits.named⟩
  rw [phase, awaits.resumes, Option.getD_some, Json.or, Json.or, if_pos truthy, if_pos truthy]
  rfl

theorem finish_answered {taken : Json × List Json} {token : Json} {resumed : Bool}
    (stands : Stands "waiting" "waiting" taken.1) (awaits : Awaits step taken.1)
    (finished : finishTaking taken = some (token, resumed)) : Answered step token resumed := by
  unfold finishTaking at finished
  split at finished
  · obtain ⟨rfl, rfl⟩ := Prod.mk.inj (Option.some.inj finished)
    exact ⟨stands, awaits⟩
  · obtain ⟨received, receive, same⟩ := Option.map_eq_some_iff.mp finished
    obtain ⟨rfl, rfl⟩ := Prod.mk.inj same
    exact receive_answered awaits receive

/-- The entries of the stages after a loop over inputs. -/
theorem loop_answered {now : String}
    {take : Json × List Json → TerminalEvent → Option (Json × List Json)}
    (does : ∀ {event taken taken'}, (wait? taken.1).isSome = true → take taken event = some taken' →
      Does now event taken taken') {read : List TerminalEvent} {start token : Json}
    {taken : Json × List Json} {resumed : Bool} (stands : Stands "waiting" "waiting" a)
    (awaits : Awaits step a) (alike : Alike a start) (took : read.foldlM take (start, []) = some taken)
    (finished : finishTaking taken = some (token, resumed)) : Answered step token resumed := by
  have stays := loop_stays does alike.waiting.2 took
  have reads : ∀ p ∈ stagePaths, taken.1.at? p = a.at? p := fun p isPath =>
    (stays.reads p isPath).trans (alike.reads p (stagePaths_read p isPath).1).symm
  exact finish_answered (stands.of_reads (reads _ (by decide)) (reads _ (by decide)))
    (awaits.of_reads reads) finished

theorem consume_answered {now : String} {latest : Int} {events : List TerminalEvent} {resumed : Bool}
    (stands : Stands "waiting" "waiting" a) (awaits : Awaits step a)
    (did : consumePendingTerminalInputs now latest events a = some (b, resumed)) :
    Answered step b resumed := by
  obtain ⟨wait, isWait⟩ := Option.isSome_iff_exists.mp awaits.has
  obtain ⟨start, taken, alike, -, took, finished⟩ := fast_spec isWait (stands.is _) did
  exact loop_answered consume_event_does stands awaits alike took finished

/-- A turn that begins leaves a running token as it was stored. -/
theorem Runs.synced {now : String} {events : List TerminalEvent} {steps : List ScaffoldStep}
    {nodes passed : Nat} (runs : Runs steps a nodes passed)
    (did : syncTerminalEvents now events a = some b) : b = a := by
  unfold syncTerminalEvents at did
  rw [if_pos (by rw [isWaiting, runs.awake]; rfl)] at did
  exact (Option.some.inj did).symm

/-- One that waited has its step to evaluate. -/
theorem Waits.synced {now : String} {events : List TerminalEvent} {steps : List ScaffoldStep}
    {passed : Nat} (waits : Waits steps a passed) (did : syncTerminalEvents now events a = some b)
    (awake : hasStatus b "waiting" = false) :
    2 * passed + 2 ≤ 2 * steps.length ∧ Runs steps b (2 * passed + 2) passed := by
  cases waits with
  | @held before step rest split stands awaits =>
    obtain ⟨wait, isWait⟩ := Option.isSome_iff_exists.mp awaits.has
    have hasCursor : ∃ cursor, cursor? a = some cursor := by
      unfold syncTerminalEvents at did
      rw [if_neg (by simp [isWaiting, stands.is, isWait])] at did
      obtain ⟨cursor, isCursor, -⟩ := Option.bind_eq_some_iff.mp did
      exact ⟨cursor, isCursor⟩
    obtain ⟨cursor, isCursor⟩ := hasCursor
    obtain ⟨start, taken, -, resumed, alike, -, -, took, finished⟩ :=
      slow_spec isWait (stands.is _) isCursor did
    obtain ⟨stands', awaits'⟩ := loop_answered sync_event_does stands awaits alike took finished
    cases resumed with
    | false =>
      rw [stands'.is] at awake
      cases awake
    | true =>
      refine ⟨?_, .evaluate split stands' awaits'⟩
      rw [split, List.length_append, List.length_cons]
      omega

end Intake

/-! ### Entering a wait -/

section Waiting

variable {step : ScaffoldStep} {a b : Json}

theorem enter_awaits {now runId : String} {isFirst : Bool} {observation artifact : Json} {accept : Int}
    (named : step.id ≠ "") (enters : enterWaitCheckpoint now runId (instructNode step isFirst)
      observation artifact accept a = some b) : Stands "waiting" "waiting" b ∧ Awaits step b := by
  obtain ⟨c, wait, enters⟩ := Option.bind_eq_some_iff.mp enters
  obtain ⟨d, ledger, enters⟩ := Option.bind_eq_some_iff.mp enters
  obtain ⟨e, listed, enters⟩ := Option.bind_eq_some_iff.mp enters
  obtain ⟨f, status, phase⟩ := Option.bind_eq_some_iff.mp enters
  have later : Writes [["control", "evidence_progress"], ["control", "wait_checkpoints"], ["status"],
      ["phase"]] c b :=
    (Writes.put ledger).trans ((Writes.push listed).trans ((Writes.put status).trans (.put phase)))
  have waits : ∀ key value, (newWait now runId (instructNode step isFirst) observation accept).at? [key] =
      some value → b.at? ["control", "wait", key] = some value := by
    intro key value read
    rw [later.read (by simp [Json.Apart, apart])]
    exact (at?_below (at?_put?_same wait) [key]).trans read
  have resumes : (((interaction (instructNode step isFirst)).field "resume_phase").strOr
      ("evaluate_" ++ ((instructNode step isFirst).field "id").toStr)) = evaluateId step.id := by
    show (str (evaluateId step.id)).strOr _ = _
    rw [strOr, truthy_str, if_pos (bne_iff_ne.mpr (ne_of_head (by rw [evaluateId_head]; decide)))]
    rfl
  have isStep : workflowStepId (instructNode step isFirst) = step.id := by
    show ((str step.id).or _).strOr = _
    rw [Json.or, truthy_str, if_pos (bne_iff_ne.mpr named), str_or_str]
  refine ⟨⟨?_, at?_put?_same phase⟩, ⟨?_, ?_⟩⟩
  · rw [at?_put?_apart (by decide) phase, at?_put?_same status]
  · refine waits _ _ ?_
    rw [← resumes]
    rfl
  · refine waits _ _ ?_
    conv => rhs; rw [← isStep]
    rfl

/-- Going back to waiting keeps the step. -/
theorem reopen_waits {observation : Json} {waits : Bool} (awaits : Awaits step a)
    (reopened : reopenWait observation a = some (b, waits)) :
    waits = true ∧ Stands "waiting" "waiting" b ∧ Awaits step b := by
  obtain ⟨wait, isWait⟩ := Option.isSome_iff_exists.mp awaits.has
  unfold reopenWait at reopened
  rw [isWait] at reopened
  obtain ⟨c, isStatus, reopened⟩ := Option.bind_eq_some_iff.mp reopened
  obtain ⟨d, reason, reopened⟩ := Option.bind_eq_some_iff.mp reopened
  obtain ⟨e, status, reopened⟩ := Option.bind_eq_some_iff.mp reopened
  obtain ⟨f, phase, same⟩ := Option.bind_eq_some_iff.mp reopened
  obtain ⟨rfl, rfl⟩ := Prod.mk.inj (Option.some.inj same)
  have writes : Writes [["control", "wait", "status"], ["control", "wait", "reason"], ["status"],
      ["phase"]] a f :=
    (Writes.put isStatus).trans ((Writes.put reason).trans ((Writes.put status).trans (.put phase)))
  refine ⟨rfl, ⟨?_, at?_put?_same phase⟩, awaits.of_writes writes (by decide)⟩
  rw [at?_put?_apart (by decide) phase, at?_put?_same status]

/-- A recoverable failure goes back to waiting for the step. -/
theorem recovered_waits {now error : String} {trace : TraceRef} {event : Option TerminalEvent}
    (awaits : Awaits step a) (recovered : recoverTerminalTurnToken now error trace event a = some b) :
    Stands "waiting" "waiting" b ∧ Awaits step b := by
  have writes := recover_token_writes recovered
  unfold recoverTerminalTurnToken at recovered
  obtain ⟨c, noted, recovered⟩ := Option.bind_eq_some_iff.mp recovered
  obtain ⟨d, processing, recovered⟩ := Option.bind_eq_some_iff.mp recovered
  obtain ⟨e, status, recovered⟩ := Option.bind_eq_some_iff.mp recovered
  obtain ⟨f, phase, appended⟩ := Option.bind_eq_some_iff.mp recovered
  have copies := append_if_next_writes appended
  refine ⟨⟨?_, ?_⟩, awaits.of_writes writes (by decide)⟩
  · rw [copies.read (by decide), at?_put?_apart (by decide) phase, at?_put?_same status]
  · rw [copies.read (by decide), at?_put?_same phase]

/-- The wait of an instruction, entered and perhaps answered at once. -/
theorem instruct_answered {now runId : String} {latest : Int} {events : List TerminalEvent}
    {isFirst : Bool} {artifact observation : Json} {accept : Int} {waits resumed : Bool}
    (named : step.id ≠ "") (did : waitAfterOutput now runId latest events artifact
      (instructNode step isFirst) observation accept a = some (b, waits, resumed)) :
    waits = !resumed ∧ Answered step b resumed := by
  unfold waitAfterOutput at did
  have wanted : ((interaction (instructNode step isFirst)).field "wait_after_output").truthy = true := rfl
  rw [wanted] at did
  obtain ⟨entered, enter, did⟩ := Option.bind_eq_some_iff.mp did
  obtain ⟨⟨consumed, took⟩, consume, did⟩ := Option.bind_eq_some_iff.mp did
  obtain ⟨rfl, same⟩ := Prod.mk.inj (Option.some.inj did)
  obtain ⟨rfl, rfl⟩ := Prod.mk.inj same
  obtain ⟨stands, awaits⟩ := enter_awaits named enter
  exact ⟨rfl, consume_answered stands awaits consume⟩

end Waiting

/-! ### Merging -/

section Merging

variable {a b observation seen : Json}

theorem observations_path (id : String) :
    pathParts ("observations." ++ id) = "observations" :: pathParts id :=
  Text.splitOn_at_sep '.' "observations" id (by decide)

/-- The operation takes nothing from the token, and writes to the observations or the outputs. -/
def FilesOnly (operation : Json) : Prop :=
  mergeSource? operation = none ∧ ∀ path, mergeTarget? operation = some path → ∃ rest,
    pathParts path = "observations" :: rest ∨ pathParts path = "outputs" :: rest

theorem files_keeps (id : String) : FilesOnly (keepsObservation id) := by
  have source : mergeSource? (setFrom "observations.start" "observation") = none := by decide
  refine ⟨source, fun path target => ?_⟩
  obtain rfl : "observations." ++ id = path := Option.some.inj target
  exact ⟨_, .inl (observations_path id)⟩

theorem FilesOnly.apart {operation : Json} (files : FilesOnly operation) {p : List String}
    (first : Json.Apart ["observations"] p) (second : Json.Apart ["outputs"] p) :
    OperationApart operation p := by
  intro path target
  refine ⟨?_, fun source isSource => ?_⟩
  · obtain ⟨rest, same | same⟩ := files.2 path target
    · rw [same]
      exact first.shorten
    · rw [same]
      exact second.shorten
  · rw [files.1] at isSource
    cases isSource

/-- A node that writes what it observed leaves the stages alone. -/
theorem merge_stages {node : Json} (own : ∀ operation ∈ (node.field "merge").items, FilesOnly operation)
    (merged : mergeObservation node observation a = some (b, seen)) :
    ∀ p ∈ ["control", "wait"] :: stagePaths, b.at? p = a.at? p := by
  have beside : ∀ p ∈ ["control", "wait"] :: stagePaths,
      Json.Apart ["observations"] p ∧ Json.Apart ["outputs"] p := by decide
  intro p isPath
  obtain ⟨first, second⟩ := beside p isPath
  exact merge_observation_read (fun operation isOperation => (own operation isOperation).apart first second)
    first merged

theorem keeps_observation {node : Json} {id : String}
    (merges : node.field "merge" = arr [keepsObservation id])
    (merged : mergeObservation node observation a = some (b, seen)) :
    ∀ p ∈ ["control", "wait"] :: stagePaths, b.at? p = a.at? p := by
  refine merge_stages (fun operation isOperation => ?_) merged
  rw [merges] at isOperation
  obtain rfl := List.mem_singleton.mp isOperation
  exact files_keeps id

theorem files_final : ∀ operation ∈ (finalVerifyNode.field "merge").items, FilesOnly operation := by
  intro operation isOperation
  have isOne : operation = setFrom "observations.final_verify" "observation" ∨
      operation = setFrom "outputs.final_response" "observation.terminal_message" := by
    simpa using (show operation ∈ [_, _] from isOperation)
  rcases isOne with rfl | rfl
  · refine ⟨by decide, fun path target => ?_⟩
    obtain rfl : "observations.final_verify" = path := Option.some.inj target
    exact ⟨["final_verify"], .inl (by decide)⟩
  · refine ⟨by decide, fun path target => ?_⟩
    obtain rfl : "outputs.final_response" = path := Option.some.inj target
    exact ⟨["final_response"], .inr (by decide)⟩

theorem final_merged (merged : mergeObservation finalVerifyNode observation a = some (b, seen)) :
    ∀ p ∈ ["control", "wait"] :: stagePaths, b.at? p = a.at? p := merge_stages files_final merged

/-- An operation that stores a text keeps apart from other paths. -/
theorem value_apart {path value : String} {p : List String} (beside : Json.Apart (pathParts path) p) :
    OperationApart (setValue path value) p := by
  intro target isTarget
  obtain rfl : path = target := Option.some.inj isTarget
  refine ⟨beside, fun source isSource => ?_⟩
  cases isSource

/-- A text that an operation stores. -/
theorem value_stored {node : Json} {before later : List Json} {path value : String}
    (split : (node.field "merge").items = before ++ setValue path value :: later)
    (others : ∀ o ∈ before ++ later, OperationApart o (pathParts path))
    (beside : Json.Apart ["observations"] (pathParts path))
    (merged : mergeObservation node observation a = some (b, seen)) :
    b.at? (pathParts path) = some (str value) :=
  @merge_observation_stores _ _ _ _ _ _ (str value) _ rfl _ _ split rfl others beside (fun _ _ => rfl) merged

/-- The operations of the start leave the phase of the first instruction. -/
theorem start_merged {firstId : String}
    (merged : mergeObservation (startNode firstId) observation a = some (b, seen)) :
    b.at? ["phase"] = some (str (instructId firstId)) ∧ b.at? ["status"] = a.at? ["status"] ∧
      b.at? ["control", "wait"] = a.at? ["control", "wait"] := by
  have files : FilesOnly (setFrom "observations.start" "observation") := files_keeps "start"
  have free : ∀ p, Json.Apart ["observations"] p → Json.Apart ["outputs"] p → Json.Apart ["phase"] p →
      b.at? p = a.at? p := by
    intro p first second third
    refine merge_observation_read (fun operation isOperation => ?_) first merged
    have isOne : operation = setFrom "observations.start" "observation" ∨
        operation = setValue "phase" (instructId firstId) := by
      simpa using (show operation ∈ [_, _] from isOperation)
    rcases isOne with rfl | rfl
    · exact files.apart first second
    · exact value_apart third
  refine ⟨?_, free _ (by decide) (by decide) (by decide), free _ (by decide) (by decide) (by decide)⟩
  refine @value_stored _ _ _ _ (startNode firstId) [setFrom "observations.start" "observation"] [] "phase" _
    rfl (fun o isIn => ?_) (by decide) merged
  obtain rfl : o = _ := List.mem_singleton.mp isIn
  exact files.apart (by decide) (by decide)

/-- The operations of the terminal node. -/
theorem terminal_operation {o : Json} (isIn : o ∈ (terminalNode.field "merge").items) :
    o = setFrom "outputs.final_response" "observation.final_response" ∨ o = setValue "status" "success" ∨
      o = setValue "phase" "completed" := by
  simpa using (show o ∈ [_, _, _] from isIn)

theorem files_answer : FilesOnly (setFrom "outputs.final_response" "observation.final_response") := by
  refine ⟨by decide, fun path target => ?_⟩
  obtain rfl : "outputs.final_response" = path := Option.some.inj target
  exact ⟨["final_response"], .inr (by decide)⟩

/-- The operations of the terminal node leave a success. -/
theorem terminal_merged (merged : mergeObservation terminalNode observation a = some (b, seen)) :
    Stands "success" "completed" b ∧ b.at? ["control", "wait", "resume_phase"] =
      a.at? ["control", "wait", "resume_phase"] ∧ b.at? ["control", "wait", "workflow_step_id"] =
      a.at? ["control", "wait", "workflow_step_id"] := by
  have answer : ∀ p, Json.Apart ["observations"] p → Json.Apart ["outputs"] p → OperationApart
      (setFrom "outputs.final_response" "observation.final_response") p := fun p => files_answer.apart
  have free : ∀ p, Json.Apart ["observations"] p → Json.Apart ["outputs"] p → Json.Apart ["status"] p →
      Json.Apart ["phase"] p → b.at? p = a.at? p := by
    intro p first second third fourth
    refine merge_observation_read (fun o isIn => ?_) first merged
    rcases terminal_operation isIn with rfl | rfl | rfl
    · exact answer p first second
    · exact value_apart third
    · exact value_apart fourth
  refine ⟨⟨?_, ?_⟩, free _ (by decide) (by decide) (by decide) (by decide),
    free _ (by decide) (by decide) (by decide) (by decide)⟩
  · refine @value_stored _ _ _ _ terminalNode
      [setFrom "outputs.final_response" "observation.final_response"] [setValue "phase" "completed"] "status" _
      rfl (List.forall_mem_cons.mpr ⟨answer _ (by decide) (by decide), ?_⟩) (by decide) merged
    exact List.forall_mem_singleton.mpr (value_apart (by decide))
  · refine @value_stored _ _ _ _ terminalNode
      [setFrom "outputs.final_response" "observation.final_response", setValue "status" "success"] [] "phase" _
      rfl (List.forall_mem_cons.mpr ⟨answer _ (by decide) (by decide), ?_⟩) (by decide) merged
    exact List.forall_mem_singleton.mpr (value_apart (by decide))

end Merging

/-! ### Applying an interaction -/

section Applying

variable {now runId : String} {latest : Int} {events : List TerminalEvent}
  {artifact node observation : Json} {accept : Int} {a : Json} {applied : Applied}

/-- A node that neither evaluates nor asks for a wait leaves the merged token. -/
theorem apply_passing (plain : isEvaluation node = false)
    (unasked : ((interaction node).field "wait_after_output").truthy = false)
    (did : applyNodeInteraction now runId latest events artifact node observation accept a = applied) :
    applied.token = a ∧ applied.outcome = .ok false := by
  subst did
  simp [applyNodeInteraction, resolveDecision, waitAfterOutput, concludeInteraction, plain, unasked]

theorem start_plain (firstId : String) : isEvaluation (startNode firstId) = false := by
  have isId : nodeId (startNode firstId) = "start" := node_id_of rfl
  rw [isEvaluation, isId]
  rfl

theorem instruct_plain (step : ScaffoldStep) (isFirst : Bool) :
    isEvaluation (instructNode step isFirst) = false := by
  have name : Text.startsWith "evaluate_" (instructId step.id) = false := by
    rw [Text.startsWith, instructId, String.toList_append]
    rfl
  rw [isEvaluation, instruct_nodeId, name, Bool.or_false]
  rfl

/-- An instruction waits for its step, or goes on to evaluate the inputs that were there. -/
theorem apply_instruct {step : ScaffoldStep} {isFirst : Bool} (named : step.id ≠ "")
    (did : applyNodeInteraction now runId latest events artifact (instructNode step isFirst) observation
      accept a = applied) :
    (∀ waits, applied.outcome = .ok waits → Answered step applied.token (!waits)) ∧
      (∀ failure, applied.outcome = .error failure → isRecoverable applied.token = false) := by
  subst did
  have plain := instruct_plain step isFirst
  simp only [applyNodeInteraction, resolveDecision, plain, Bool.not_false, if_true, Bool.false_eq_true,
    if_false]
  cases wait : waitAfterOutput now runId latest events artifact (instructNode step isFirst) observation
      accept a with
  | none =>
    refine ⟨fun waits ok => ?_, fun _ _ => half_wait_unrecoverable ..⟩
    cases ok
  | some waited =>
    obtain ⟨token, entered, resumed⟩ := waited
    obtain ⟨rfl, answered⟩ := instruct_answered named wait
    simp only [concludeInteraction, plain, Bool.not_false, if_true]
    refine ⟨fun waits ok => ?_, fun failure failed => ?_⟩
    · rw [← Except.ok.inj ok, Bool.not_not]
      exact answered
    · cases failed

theorem merge_evidence_awaits {nodeId : String} {step : ScaffoldStep} {b : Json}
    (awaits : Awaits step a) {phase : String} (stands : Stands "running" phase a)
    (merged : mergeEvidenceProgress now nodeId artifact observation a = some b) :
    Awaits step b ∧ Stands "running" phase b := by
  have writes : Writes [["control", "evidence_progress"]] a b := by
    unfold mergeEvidenceProgress at merged
    simp only at merged
    split at merged
    · obtain rfl := Option.some.inj merged
      exact .refl _ _
    · obtain ⟨filled, fill, merged⟩ := Option.bind_eq_some_iff.mp merged
      split at merged
      · exact (Writes.fill "evidence_progress" fill).step (.put merged)
      · obtain rfl := Option.some.inj merged
        exact .fill "evidence_progress" fill
  exact ⟨awaits.of_writes writes (by decide),
    stands.of_reads (writes.read (by decide)) (writes.read (by decide))⟩

/-- What the decision of an evaluation leaves. -/
inductive Decided (next : String) (token : Json) : RunnerDecision → Prop
  | proceeds (stands : Stands "running" next token) : Decided next token .continue_
  | completes (stands : Stands "running" "terminal" token) : Decided next token .complete
  | aborts (stands : Stands "aborted" "aborted" token) : Decided next token .abort
  | retries (stands : Stands "waiting" "waiting" token) : Decided next token .retry
  | asks (stands : Stands "waiting" "waiting" token) : Decided next token .needMoreEvidence

/-- A decision opens the wait again. -/
def reopens : RunnerDecision → Bool
  | .retry | .needMoreEvidence => true
  | .continue_ | .complete | .abort => false

theorem apply_decided {next phase target : String} {decision : RunnerDecision} {step : ScaffoldStep}
    {b : Json} {waits : Bool} (isTarget : decision.runtimeDecision ∈ leavingDecisions →
      target = targetOf next decision.runtimeDecision)
    (halts : entersAbortedTerminal artifact "terminal" = false) (awaits : Awaits step a)
    (stands : Stands "running" phase a)
    (did : applyDecision now decision.runtimeDecision target artifact node observation a =
      some (b, waits)) : Awaits step b ∧ Decided next b decision ∧ waits = reopens decision := by
  have moved : ∀ {target}, a.put? ["phase"] (str target) = some b →
      Awaits step b ∧ Stands "running" target b := by
    intro target put
    exact ⟨awaits.of_writes (.put put) (by decide),
      (at?_put?_apart (by decide) put).trans stands.status, at?_put?_same put⟩
  cases decision with
  | needMoreEvidence =>
    obtain ⟨rfl, waiting, kept⟩ := reopen_waits awaits did
    exact ⟨kept, .asks waiting, rfl⟩
  | retry =>
    obtain ⟨rfl, waiting, kept⟩ := reopen_waits awaits did
    exact ⟨kept, .retries waiting, rfl⟩
  | continue_ =>
    obtain rfl : target = next := isTarget (by decide)
    obtain ⟨token, put, same⟩ := Option.map_eq_some_iff.mp did
    obtain ⟨rfl, rfl⟩ := Prod.mk.inj same
    obtain ⟨kept, running⟩ := moved put
    exact ⟨kept, .proceeds running, rfl⟩
  | complete =>
    obtain rfl : target = "terminal" := isTarget (by decide)
    obtain ⟨token, put, same⟩ := Option.map_eq_some_iff.mp did
    obtain ⟨rfl, rfl⟩ := Prod.mk.inj same
    obtain ⟨kept, running⟩ := moved put
    exact ⟨kept, .completes running, rfl⟩
  | abort =>
    obtain rfl : target = "terminal" := isTarget (by decide)
    obtain ⟨token, aborted, same⟩ := Option.map_eq_some_iff.mp did
    obtain ⟨rfl, rfl⟩ := Prod.mk.inj same
    unfold abortToken at aborted
    rw [halts] at aborted
    obtain ⟨c, final, aborted⟩ := Option.bind_eq_some_iff.mp aborted
    obtain ⟨d, record, aborted⟩ := Option.bind_eq_some_iff.mp aborted
    obtain ⟨e, status, phase⟩ := Option.bind_eq_some_iff.mp aborted
    have writes : Writes [["outputs", "final_response"], ["control", "abort"], ["status"], ["phase"]]
        a token :=
      (Writes.put final).trans ((Writes.put record).trans ((Writes.put status).trans (.put phase)))
    refine ⟨awaits.of_writes writes (by decide), .aborts ⟨?_, at?_put?_same phase⟩, rfl⟩
    rw [at?_put?_apart (by decide) phase, at?_put?_same status]

/-- An evaluation keeps its wait and does what its decision says. -/
theorem apply_evaluation {next phase : String} {decision : RunnerDecision} {step : ScaffoldStep}
    (evaluates : isEvaluation node = true)
    (unasked : ((interaction node).field "wait_after_output").truthy = false)
    (leads : ∀ word ∈ leavingDecisions,
      resolveEvaluationTransition artifact node word = targetOf next word ∧ targetOf next word ≠ "")
    (halts : entersAbortedTerminal artifact "terminal" = false)
    (decides : decisionOf observation = decision.runtimeDecision) (awaits : Awaits step a)
    (stands : Stands "running" phase a)
    (did : applyNodeInteraction now runId latest events artifact node observation accept a = applied) :
    Awaits step applied.token ∧ ∀ waits, applied.outcome = .ok waits →
      Decided next applied.token decision ∧ waits = reopens decision := by
  subst did
  obtain ⟨target, resolved, isTarget⟩ : ∃ target,
      resolveDecision artifact node observation = .ok (decision.runtimeDecision, target) ∧
      (decision.runtimeDecision ∈ leavingDecisions →
        target = targetOf next decision.runtimeDecision) := by
    simp only [resolveDecision, evaluates, Bool.not_true, Bool.false_eq_true, if_false, decides]
    split
    · rename_i leaves
      obtain ⟨same, some⟩ := leads _ leaves
      rw [same, if_neg some]
      exact ⟨_, rfl, fun _ => rfl⟩
    · rename_i stays
      exact ⟨_, rfl, fun leaves => absurd leaves stays⟩
  unfold applyNodeInteraction
  simp only [resolved, evaluates, if_true]
  split
  · refine ⟨awaits, fun waits ok => ?_⟩
    cases ok
  · rename_i ledgered merged
    obtain ⟨kept, running⟩ := merge_evidence_awaits awaits stands merged
    simp only [waitAfterOutput, unasked, Bool.not_false, if_true, concludeInteraction, evaluates,
      Bool.not_true, Bool.false_eq_true, if_false, Bool.false_or]
    split
    · refine ⟨kept, fun waits ok => ?_⟩
      cases ok
    · rename_i noted note
      have still := kept.of_writes (.put note) (by decide)
      have running := running.of_reads ((Writes.put note).read (by decide))
        ((Writes.put note).read (by decide))
      split
      · refine ⟨still, fun waits ok => ?_⟩
        cases ok
      · rename_i decided again applies
        obtain ⟨awaits, result, isAgain⟩ := apply_decided isTarget halts still running applies
        exact ⟨awaits, fun waits ok => ⟨result, (Except.ok.inj ok).symm.trans isAgain⟩⟩

end Applying

/-! ### One node of a turn -/

/-- A decision of the runner's, as the merge has left it. -/
theorem decision_of_mapped {node observation token merged seen : Json} {decision : RunnerDecision}
    (decides : observation.field "decision" = str decision.runtimeDecision)
    (merge : mergeObservation node observation token = some (merged, seen)) :
    decisionOf seen = decision.runtimeDecision := by
  rw [decisionOf, seen_plain merge (by rw [decides]; rfl), decides, str_or_str]
  cases decision <;> decide

/-- The decision of an agent's node is one of the runner's. -/
theorem agent_decides {now runId projectionRef : String}
    {artifact node token observation charged merged seen : Json}
    {outcome : AgentOutcome} (kind : node.field "kind" = str "llm")
    (actor : node.field "actor" = namedActor "agent.llm")
    (ran : executeNode now runId projectionRef artifact node token outcome =
      .ok (observation, charged))
    (merge : mergeObservation node observation charged = some (merged, seen)) :
    ∃ decision : RunnerDecision, decisionOf seen = decision.runtimeDecision := by
  have name : actorName (namedActor "agent.llm") = "agent.llm" := rfl
  unfold executeNode at ran
  simp only [kind, actor, name, str?, Option.some_beq_some, String.reduceBEq, Bool.false_eq_true,
    if_false, Bool.or_self, if_true] at ran
  unfold executeRunnerAgentNode at ran
  split at ran
  · cases ran
  · cases ran
  · split at ran
    · cases ran
    · rename_i accepted
      split at ran
      · cases ran
      · obtain ⟨rfl, -⟩ := Prod.mk.inj (Except.ok.inj ran)
        exact ⟨_, decision_of_mapped rfl merge⟩

/-- How a turn goes on from one stage to the next, by the steps it has passed: past one more step if the
evaluation of a step proceeds, and to the end only from there or by an evaluation that completes. -/
inductive Onward (steps : List ScaffoldStep) (held node observation token : Json)
    (nodes passed : Nat) : Nat → Nat → Prop
  | along {later : Nat} (below : nodes < later)
      (early : passed = steps.length ∨ 2 * steps.length + 2 ≤ nodes ∨ later < 2 * steps.length + 2 ∨
        later = 2 * steps.length + 4)
      (ends : later = 2 * steps.length + 3 → nodes = 2 * steps.length + 2) :
      Onward steps held node observation token nodes passed later passed
  | proceeds {before : List ScaffoldStep} {step : ScaffoldStep} {rest : List ScaffoldStep} {later : Nat}
      (split : steps = before ++ step :: rest) (passes : passed = before.length)
      (isNode : node = evaluateNode step (nextPhase rest))
      (decides : decisionOf observation = "proceed")
      (stands : Stands "running" (nextPhase rest) token) (awaits : Awaits step held)
      (still : Awaits step token) (below : nodes < later) (early : later < 2 * steps.length + 2) :
      Onward steps held node observation token nodes passed later (before.length + 1)
  | completes {before : List ScaffoldStep} {step : ScaffoldStep} {rest : List ScaffoldStep} {later : Nat}
      (split : steps = before ++ step :: rest) (passes : passed = before.length)
      (isNode : node = evaluateNode step (nextPhase rest)) (decides : decisionOf observation = "complete")
      (stands : Stands "running" "terminal" token) (below : nodes < later) :
      Onward steps held node observation token nodes passed later passed

theorem Onward.below {steps : List ScaffoldStep} {held node observation token : Json}
    {nodes passed later after : Nat}
    (onward : Onward steps held node observation token nodes passed later after) : nodes < later := by
  cases onward with
  | along below | proceeds _ _ _ _ _ _ _ below | completes _ _ _ _ _ below => exact below

/-- A token that completed has passed all nodes. -/
theorem Runs.last {steps : List ScaffoldStep} {token : Json} {nodes passed : Nat}
    (runs : Runs steps token nodes passed) (ends : Stands "success" "completed" token) : nodes = 2 * steps.length + 3 := by
  have other : ∀ {status phase : String}, Stands status phase token → status = "success" :=
    fun stands => Json.str.inj (Option.some.inj (stands.status.symm.trans ends.status))
  cases runs with
  | completed => rfl
  | start stands | instruct _ stands | evaluate _ stands | verify _ stands | terminal stands
  | aborted stands => exact absurd (other stands) (by decide)

/-- A run is completed from the last node only. -/
theorem Onward.completed {steps : List ScaffoldStep} {held node observation token : Json}
    {nodes passed later after : Nat}
    (onward : Onward steps held node observation token nodes passed later after)
    (runs : Runs steps token later after) (stands : Stands "success" "completed" token) :
    nodes = 2 * steps.length + 2 := by
  have ended := runs.last stands
  cases onward with
  | along below early ends => exact ends ended
  | proceeds split passes isNode decides is awaits still below early => omega
  | completes split passes isNode decides is below =>
    have same := is.status.symm.trans stands.status
    exact absurd (Json.str.inj (Option.some.inj same)) (by decide)

/-- What a node makes of a running token. -/
structure Leaves (steps : List ScaffoldStep) (held node observation : Json) (nodes passed : Nat)
    (applied : Applied) : Prop where
  goes : applied.outcome = .ok false → ∃ later after, Runs steps applied.token later after ∧
    Onward steps held node observation applied.token nodes passed later after
  waits : applied.outcome = .ok true → ∃ before ≤ passed, Waits steps applied.token before ∧
    (nodes ≤ 2 * before + 2 ∨ node = finalVerifyNode)
  fails : isRecoverable applied.token = true → AwaitsWithin steps passed applied.token
  again : nodes = 2 * passed + 2 → nodes ≤ 2 * steps.length → AwaitsAt steps passed applied.token

section Nodes

variable {platform : Platform} {s : System} {attempt : Nat} {turn : Turn} {outcome : AgentOutcome}
  {supply : Supply} {node observation charged merged : Json} {shown : Rows} {first : ScaffoldStep}
  {steps : List ScaffoldStep}

/-- The node that a turn selects is the one of its phase. -/
theorem selected_is_node (selected : Selected s attempt turn node)
    (scaffolded : Scaffolded s.rows.artifact first steps) {own : Json}
    (isOwn : own ∈ scaffoldNodes first.id steps)
    (phase : turn.token.at? ["phase"] = some (str (nodeId own))) : node = own := by
  have isIn := select_mem selected.selected
  rw [scaffolded.enabled isOwn phase] at isIn
  exact List.mem_singleton.mp isIn

theorem charged_reads
    (commits : Commits platform s attempt turn outcome supply node observation charged merged shown) :
    ∀ p ∈ ["control", "wait"] :: stagePaths, charged.at? p = turn.token.at? p := by
  intro p isPath
  obtain ⟨made, ran, -⟩ := commits.merge
  refine (execute_node_writes ran).read fun q isQ => ?_
  obtain rfl := List.mem_singleton.mp isQ
  revert p
  decide

/-- A node at an evaluation. -/
theorem evaluation_decided {next phase : String} {step : ScaffoldStep}
    (scaffolded : Scaffolded s.rows.artifact first steps)
    (commits : Commits platform s attempt turn outcome supply node observation charged merged shown)
    (kept : ∀ p ∈ ["control", "wait"] :: stagePaths, merged.at? p = charged.at? p)
    (kind : node.field "kind" = str "llm") (actor : node.field "actor" = namedActor "agent.llm")
    (evaluates : isEvaluation node = true)
    (unasked : ((interaction node).field "wait_after_output").truthy = false)
    (declared : (interaction node).field "transitions" =
      obj [("proceed", str next), ("complete", str "terminal"), ("abort", str "terminal")])
    (known : next ∈ artifactNodeIds s.rows.artifact) (spaceless : Spaceless next)
    (stands : Stands "running" phase turn.token) (awaits : Awaits step turn.token) :
    Awaits step (interacted platform s turn node observation merged).token ∧
      ∃ decision : RunnerDecision, decisionOf observation = decision.runtimeDecision ∧
        ∀ waits, (interacted platform s turn node observation merged).outcome = .ok waits →
          Decided next (interacted platform s turn node observation merged).token decision ∧
            waits = reopens decision := by
  have reads : ∀ p ∈ ["control", "wait"] :: stagePaths, merged.at? p = turn.token.at? p :=
    fun p isPath => (kept p isPath).trans (charged_reads commits p isPath)
  have isAwaits : Awaits step merged :=
    awaits.of_reads fun p isPath => reads p (List.mem_cons_of_mem _ isPath)
  have isStands : Stands "running" phase merged :=
    stands.of_reads (reads _ (by decide)) (reads _ (by decide))
  obtain ⟨made, ran, merge⟩ := commits.merge
  obtain ⟨decision, decides⟩ := agent_decides kind actor ran merge
  have leads : ∀ word ∈ leavingDecisions, resolveEvaluationTransition s.rows.artifact node word =
      targetOf next word ∧ targetOf next word ≠ "" := fun word leaves => by
    obtain ⟨same, isNode⟩ := scaffolded.resolves known spaceless declared leaves
    exact ⟨same, fun blank => blank_not_mem s.rows.artifact (blank ▸ isNode)⟩
  have applied : Awaits step (interacted platform s turn node observation merged).token ∧
      ∀ waits, (interacted platform s turn node observation merged).outcome = .ok waits →
        Decided next (interacted platform s turn node observation merged).token decision ∧
          waits = reopens decision :=
    apply_evaluation evaluates unasked leads scaffolded.enters.2 decides isAwaits isStands rfl
  exact ⟨applied.1, decision, decides, applied.2⟩

/-- A node at an instruction. -/
theorem instruct_interacted {step : ScaffoldStep} (named : step.id ≠ "") (platform : Platform)
    (s : System) (turn : Turn) (isFirst : Bool) (observation merged : Json) :
    let applied := interacted platform s turn (instructNode step isFirst) observation merged
    (∀ waits, applied.outcome = .ok waits → Answered step applied.token (!waits)) ∧
      (∀ failure, applied.outcome = .error failure → isRecoverable applied.token = false) :=
  apply_instruct named rfl

theorem start_leaves (scaffolded : Scaffolded s.rows.artifact first steps)
    (stands : Stands "running" "start" turn.token) (behind : Behind [] turn.token)
    (commits : Commits platform s attempt turn outcome supply node observation charged merged shown) :
    Leaves steps turn.token node observation 0 0 (interacted platform s turn node observation merged) := by
  have charged := charged_reads commits
  obtain rfl := selected_is_node commits.selected scaffolded List.mem_cons_self stands.phase
  obtain ⟨made, -, merge⟩ := commits.merge
  obtain ⟨phase, status, wait⟩ := start_merged merge
  have passed : (interacted platform s turn (startNode first.id) observation merged).token = merged ∧
      (interacted platform s turn (startNode first.id) observation merged).outcome = .ok false :=
    apply_passing (start_plain _) rfl rfl
  have none_ : wait? merged = none := by
    rw [wait?, wait, charged _ List.mem_cons_self]
    exact behind
  obtain ⟨rest, split⟩ : ∃ rest, steps = first :: rest := List.head?_eq_some_iff.mp scaffolded.head
  refine ⟨fun _ => ⟨1, 0, ?_, .along Nat.one_pos (.inr (.inr (.inl (by omega)))) (by omega)⟩, fun ok => ?_,
    fun recoverable => ?_, by omega⟩
  · rw [passed.1]
    refine @Runs.instruct _ _ [] first rest split ⟨?_, phase⟩ none_
    rw [status, charged _ (by decide), stands.status]
  · rw [passed.2] at ok
    cases ok
  · rw [passed.1] at recoverable
    simp [isRecoverable, none_] at recoverable

theorem instruct_leaves {before : List ScaffoldStep} {step : ScaffoldStep} {rest : List ScaffoldStep}
    (scaffolded : Scaffolded s.rows.artifact first steps) (split : steps = before ++ step :: rest)
    (stands : Stands "running" (instructId step.id) turn.token)
    (commits : Commits platform s attempt turn outcome supply node observation charged merged shown) :
    Leaves steps turn.token node observation (2 * before.length + 1) before.length
      (interacted platform s turn node observation merged) := by
  have isNode : instructNode step (true && before.isEmpty) ∈ scaffoldNodes first.id steps :=
    mem_of_steps (split ▸ (step_nodes_mem true before step rest).1)
  have isStep : step ∈ steps := split ▸ by simp
  have length : steps.length = before.length + (rest.length + 1) := by
    rw [split, List.length_append, List.length_cons]
  obtain rfl := selected_is_node commits.selected scaffolded isNode (stands.phase.trans
    (by rw [instruct_nodeId]))
  generalize (true && before.isEmpty) = isFirst at commits
  obtain ⟨answers, fails⟩ := instruct_interacted (scaffolded.fits step isStep).named platform s turn
    isFirst observation merged
  refine ⟨fun ok => ?_, fun ok => ?_, fun recoverable => ?_, by omega⟩
  · obtain ⟨stands, awaits⟩ := answers _ ok
    exact ⟨_, _, .evaluate split stands awaits, .along (by omega) (.inr (.inr (.inl (by omega))))
      (by omega)⟩
  · obtain ⟨stands, awaits⟩ := answers _ ok
    exact ⟨_, le_refl _, .held split stands awaits, .inl (by omega)⟩
  · cases result : (interacted platform s turn (instructNode step isFirst) observation merged).outcome with
    | error failure =>
      rw [fails failure result] at recoverable
      cases recoverable
    | ok waits => exact ⟨_, _, _, split, le_refl _, (answers waits result).2⟩

theorem evaluate_leaves {before : List ScaffoldStep} {step : ScaffoldStep} {rest : List ScaffoldStep}
    (scaffolded : Scaffolded s.rows.artifact first steps) (split : steps = before ++ step :: rest)
    (stands : Stands "running" (evaluateId step.id) turn.token) (awaits : Awaits step turn.token)
    (commits : Commits platform s attempt turn outcome supply node observation charged merged shown) :
    Leaves steps turn.token node observation (2 * before.length + 2) before.length
      (interacted platform s turn node observation merged) := by
  have isNode : evaluateNode step (nextPhase rest) ∈ scaffoldNodes first.id steps :=
    mem_of_steps (split ▸ (step_nodes_mem true before step rest).2)
  have isStep : step ∈ steps := split ▸ by simp
  have length : steps.length = before.length + (rest.length + 1) := by
    rw [split, List.length_append, List.length_cons]
  obtain rfl := selected_is_node commits.selected scaffolded isNode (stands.phase.trans
    (by rw [evaluate_nodeId]))
  obtain ⟨made, -, merge⟩ := commits.merge
  obtain ⟨after, decision, decides, applies⟩ := evaluation_decided scaffolded commits
    (keeps_observation rfl merge) rfl rfl rfl rfl rfl (scaffolded.next_mem split)
    (scaffolded.next_spaceless split) stands awaits
  have within : AwaitsWithin steps before.length
      (interacted platform s turn (evaluateNode step (nextPhase rest)) observation merged).token :=
    ⟨_, _, _, split, le_refl _, after⟩
  refine ⟨fun ok => ?_, fun ok => ?_, fun _ => within, fun _ _ => ⟨_, _, _, split, rfl, after⟩⟩
  · obtain ⟨decided, again⟩ := applies _ ok
    cases decided with
    | proceeds stands =>
      cases rest with
      | nil =>
        rw [List.length_nil] at length
        have last : steps.getLast? = some step := by
          rw [split]
          simp
        have runs := Runs.verify last stands after
        rw [length, Nat.zero_add] at runs
        refine ⟨_, _, runs, .proceeds split rfl rfl decides stands awaits after ?_ ?_⟩ <;> omega
      | cons next rest =>
        rw [List.length_cons] at length
        have behind : Behind (before ++ [step]) (interacted platform s turn
            (evaluateNode step (nextPhase (next :: rest))) observation merged).token := by
          rw [Behind, List.getLast?_append]
          exact after
        have further : steps = (before ++ [step]) ++ next :: rest := by
          rw [split, List.append_assoc]
          rfl
        have runs := Runs.instruct further stands behind
        rw [List.length_append, List.length_singleton] at runs
        refine ⟨_, _, runs, .proceeds split rfl rfl decides stands awaits after ?_ ?_⟩ <;> omega
    | completes stands =>
      exact ⟨_, _, .terminal stands within, .completes split rfl rfl decides stands (by omega)⟩
    | aborts stands =>
      exact ⟨_, _, .aborted stands within, .along (by omega) (.inr (.inr (.inr rfl))) (by omega)⟩
    | retries | asks => cases again
  · obtain ⟨decided, again⟩ := applies _ ok
    cases decided with
    | proceeds | completes | aborts => cases again
    | retries stands | asks stands =>
      exact ⟨_, le_refl _, .held split stands after, .inl (le_refl _)⟩

theorem verify_leaves {step : ScaffoldStep} (scaffolded : Scaffolded s.rows.artifact first steps)
    (last : steps.getLast? = some step) (stands : Stands "running" "final_verify" turn.token)
    (awaits : Awaits step turn.token)
    (commits : Commits platform s attempt turn outcome supply node observation charged merged shown) :
    Leaves steps turn.token node observation (2 * steps.length + 1) steps.length
      (interacted platform s turn node observation merged) := by
  obtain rfl := selected_is_node commits.selected scaffolded final_mem stands.phase
  obtain ⟨before, split⟩ := List.getLast?_eq_some_iff.mp last
  have length : steps.length = before.length + 1 := by
    rw [split, List.length_append, List.length_singleton]
  have known : "terminal" ∈ artifactNodeIds s.rows.artifact :=
    scaffolded.ids _ (by simp [scaffoldIds]) (by decide)
  obtain ⟨made, -, merge⟩ := commits.merge
  obtain ⟨after, decision, decides, applies⟩ := evaluation_decided scaffolded commits
    (final_merged merge) rfl rfl rfl rfl rfl known (spaceless_of_all (by decide)) stands awaits
  have within : AwaitsWithin steps steps.length
      (interacted platform s turn finalVerifyNode observation merged).token :=
    ⟨_, _, _, split, by omega, after⟩
  refine ⟨fun ok => ?_, fun ok => ?_, fun _ => within, by omega⟩
  · obtain ⟨decided, again⟩ := applies _ ok
    cases decided with
    | proceeds stands | completes stands =>
      exact ⟨_, _, .terminal stands within, .along (by omega) (.inl rfl) (by omega)⟩
    | aborts stands => exact ⟨_, _, .aborted stands within, .along (by omega) (.inl rfl) (by omega)⟩
    | retries | asks => cases again
  · obtain ⟨decided, again⟩ := applies _ ok
    cases decided with
    | proceeds | completes | aborts => cases again
    | retries stands | asks stands => exact ⟨_, by omega, .held split stands after, .inr rfl⟩

theorem terminal_leaves {passed : Nat} (scaffolded : Scaffolded s.rows.artifact first steps)
    (stands : Stands "running" "terminal" turn.token) (awaits : AwaitsWithin steps passed turn.token)
    (commits : Commits platform s attempt turn outcome supply node observation charged merged shown) :
    Leaves steps turn.token node observation (2 * steps.length + 2) passed
      (interacted platform s turn node observation merged) := by
  have charged := charged_reads commits
  obtain rfl := selected_is_node commits.selected scaffolded terminal_mem stands.phase
  obtain ⟨made, -, merge⟩ := commits.merge
  obtain ⟨done, resumes, named⟩ := terminal_merged merge
  obtain ⟨token, ok⟩ : (interacted platform s turn terminalNode observation merged).token = merged ∧
      (interacted platform s turn terminalNode observation merged).outcome = .ok false :=
    apply_passing rfl rfl rfl
  obtain ⟨before, step, rest, split, le, awaits⟩ := awaits
  have within : AwaitsWithin steps passed merged :=
    ⟨before, step, rest, split, le, resumes.trans ((charged _ (by decide)).trans awaits.resumes),
      named.trans ((charged _ (by decide)).trans awaits.named)⟩
  rw [← token] at done within
  refine ⟨fun _ => ⟨_, _, .completed done within, .along (by omega) (.inr (.inl (le_refl _)))
    fun _ => rfl⟩,
    fun waits => ?_, fun _ => within, by omega⟩
  rw [ok] at waits
  cases waits

/-- **One node** of a running token. -/
theorem node_leaves {nodes passed : Nat} (scaffolded : Scaffolded s.rows.artifact first steps)
    (runs : Runs steps turn.token nodes passed)
    (commits : Commits platform s attempt turn outcome supply node observation charged merged shown) :
    Leaves steps turn.token node observation nodes passed
      (interacted platform s turn node observation merged) := by
  cases runs with
  | start stands behind => exact start_leaves scaffolded stands behind commits
  | instruct split stands => exact instruct_leaves scaffolded split stands commits
  | evaluate split stands awaits => exact evaluate_leaves scaffolded split stands awaits commits
  | verify last stands awaits => exact verify_leaves scaffolded last stands awaits commits
  | terminal stands awaits => exact terminal_leaves scaffolded stands awaits commits
  | completed stands =>
    have halts := commits.selected.notSucceeded
    rw [scaffolded.halts_success, stands.status] at halts
    exact absurd halts (by decide)
  | aborted stands =>
    have halts := commits.selected.notAborted
    rw [scaffolded.halts_aborted, stands.is] at halts
    cases halts

end Nodes

end Psop.Runtime.Chain
